import LemonModel.Base.Run
import LemonModel.Text.Decimal
import LemonModel.Socket.Network

/-!
# Adapters of a WebSocket

`BrowserWebSocketNetwork` and `OwnedWebSocketNetwork` over an event target. The socket
fires its events in any order, between any two calls of the adapter. A listener is named
after the field or the local that has it; the listeners of others are left out.
-/

namespace LemonModel

open Text

/-- An event of the socket. A message has its data where that is a string. -/
inductive WebSocketEvent where
  | opens
  | message (data : Option JSString)
  | error (reason : JSString)
  | close
  deriving DecidableEq

inductive WebSocketEventType where
  | opens
  | message
  | error
  | close
  deriving DecidableEq

def WebSocketEvent.type : WebSocketEvent → WebSocketEventType
  | .opens => .opens
  | .message _ => .message
  | .error _ => .error
  | .close => .close

structure EventListener (L : Type) where
  type : WebSocketEventType
  handler : L
  once : Bool
  deriving DecidableEq

structure WebSocketCompartible (L : Type) where
  OPEN : Option Nat
  CLOSING : Option Nat
  CLOSED : Option Nat
  readyState : Nat
  listeners : List (EventListener L)
  deriving DecidableEq

namespace WebSocketCompartible

variable {L : Type} [DecidableEq L]

def stateValue (value : Option Nat) (fallback : Nat) : Nat := value.getD fallback

def isOpen (ws : WebSocketCompartible L) : Bool := ws.readyState = stateValue ws.OPEN 1

/-- The `readyState` of an adapter that is not detached. -/
def state (ws : WebSocketCompartible L) : SocketReadyState :=
  if ws.isOpen then .opened
  else if ws.readyState = stateValue ws.CLOSING 2 then .closing
  else if ws.readyState = stateValue ws.CLOSED 3 then .closed
  else .connecting

def addEventListener (ws : WebSocketCompartible L) (type : WebSocketEventType) (handler : L)
    (once : Bool) : WebSocketCompartible L :=
  if ws.listeners.any fun l => l.type = type ∧ l.handler = handler then ws
  else { ws with listeners := ws.listeners ++ [⟨type, handler, once⟩] }

def removeEventListener (ws : WebSocketCompartible L) (type : WebSocketEventType) (handler : L) :
    WebSocketCompartible L :=
  { ws with listeners := ws.listeners.filter fun l => ¬ (l.type = type ∧ l.handler = handler) }

/-- What the socket's state is when it fires an event. -/
def turn (ws : WebSocketCompartible L) : WebSocketEventType → WebSocketCompartible L
  | .opens => { ws with readyState := stateValue ws.OPEN 1 }
  | .close => { ws with readyState := stateValue ws.CLOSED 3 }
  | _ => ws

/-- The `close` of the socket itself, which fires its event later. -/
def close (ws : WebSocketCompartible L) : WebSocketCompartible L :=
  if ws.state = .closed then ws else { ws with readyState := stateValue ws.CLOSING 2 }

/-- The listeners there are when an event fires get it one by one, unless one of them
removes another; `call` is what a listener does. -/
def dispatch {N : Type} (ws : N → WebSocketCompartible L) (put : N → WebSocketCompartible L → N)
    (call : N → L → N) (type : WebSocketEventType) (n : N) : N :=
  ((ws n).listeners.filter (·.type = type)).foldl (fun n l =>
    if l ∈ (ws n).listeners then
      call (if l.once then put n ((ws n).removeEventListener type l.handler) else n) l.handler
    else n) n

end WebSocketCompartible

/-- The promise `opened` of an adapter. -/
inductive OpenPromise where
  | pending
  | resolved
  | rejected (reason : JSString)
  deriving DecidableEq

/-- Only the first settlement of a promise counts. -/
def OpenPromise.settle (p result : OpenPromise) : OpenPromise :=
  if p = .pending then result else p

/-- What `ready` returns: the promise `opened`, or one that is rejected. -/
inductive ReadyPromise where
  | opened
  | refused (reason : JSString)
  deriving DecidableEq

def ReadyPromise.value (opened : OpenPromise) : ReadyPromise → OpenPromise
  | .opened => opened
  | .refused reason => .rejected reason

/-- A call of a subscribed handler; handlers are told apart by a number. -/
inductive HandlerCall where
  | opens (handler : Nat)
  | message (handler : Nat) (data : JSString)
  | error (handler : Nat) (event : WebSocketEvent) (scope : JSString)
  deriving DecidableEq

/-- The handlers with one more; one that is subscribed already keeps its place. -/
def subscribed (handlers : List Nat) (handler : Nat) : List Nat :=
  if handler ∈ handlers then handlers else handlers ++ [handler]

namespace WEBSOCKET_NETWORK_SCOPE

def browser : JSString := lit "browserWebSocket"

def browserClose : JSString := lit "browserWebSocket.close"

def owned : JSString := lit "ownedWebSocket"

def ownedClose : JSString := lit "ownedWebSocket.close"

end WEBSOCKET_NETWORK_SCOPE

/-! ## The adapter of a socket of others -/

inductive BrowserListener where
  | readyOpenHandler
  | readyErrorHandler
  | handleOpen
  | handleMessage
  | handleError
  | handleClose
  deriving DecidableEq

/-- `readyHandlers` tells whether `readyOpenHandler` and `readyErrorHandler` are defined;
`calls` has the calls of handlers so far. -/
structure BrowserWebSocketNetwork where
  ws : WebSocketCompartible BrowserListener
  messageHandlers : List Nat
  errorHandlers : List Nat
  opened : OpenPromise
  readyHandlers : Bool
  detached : Bool
  calls : List HandlerCall
  deriving DecidableEq

namespace BrowserWebSocketNetwork

def create (ws : WebSocketCompartible BrowserListener) : BrowserWebSocketNetwork :=
  let ws := { ws with listeners := [] }
  let waiting :=
    if ws.isOpen then ws
    else
      (ws.addEventListener .opens .readyOpenHandler true).addEventListener .error
        .readyErrorHandler true
  { ws := (((waiting.addEventListener .opens .handleOpen false).addEventListener .message
      .handleMessage false).addEventListener .error .handleError false).addEventListener .close
      .handleClose false
    messageHandlers := []
    errorHandlers := []
    opened := if ws.isOpen then .resolved else .pending
    readyHandlers := !ws.isOpen
    detached := false
    calls := [] }

def ready (n : BrowserWebSocketNetwork) : ReadyPromise :=
  if n.detached then .refused (lit "@network connection error: closed - browserWebSocket.ready")
  else .opened

/-- `none` where it throws. -/
def onMessage (n : BrowserWebSocketNetwork) (handler : Nat) : Option BrowserWebSocketNetwork :=
  if n.detached then none
  else some { n with messageHandlers := subscribed n.messageHandlers handler }

def onError (n : BrowserWebSocketNetwork) (handler : Nat) : BrowserWebSocketNetwork :=
  { n with errorHandlers := subscribed n.errorHandlers handler }

def detachReadyListeners (n : BrowserWebSocketNetwork) : BrowserWebSocketNetwork :=
  { n with
    ws :=
      if n.readyHandlers then
        (n.ws.removeEventListener .opens .readyOpenHandler).removeEventListener .error
          .readyErrorHandler
      else n.ws
    readyHandlers := false }

def detach (n : BrowserWebSocketNetwork) : BrowserWebSocketNetwork :=
  if n.detached then n
  else
    detachReadyListeners
      { n with
        detached := true
        messageHandlers := []
        errorHandlers := []
        ws := (((n.ws.removeEventListener .opens .handleOpen).removeEventListener .message
          .handleMessage).removeEventListener .error .handleError).removeEventListener .close
          .handleClose }

def close (n : BrowserWebSocketNetwork) : BrowserWebSocketNetwork := n.detach

/-- The error handlers are told of an event. -/
def report (n : BrowserWebSocketNetwork) (event : WebSocketEvent) (scope : JSString) :
    BrowserWebSocketNetwork :=
  if n.detached then n
  else { n with calls := n.calls ++ n.errorHandlers.map (.error · event scope) }

/-- What a listener does with an event. -/
def call (event : WebSocketEvent) (n : BrowserWebSocketNetwork) :
    BrowserListener → BrowserWebSocketNetwork
  | .readyOpenHandler =>
    { n.detachReadyListeners with opened := n.opened.settle .resolved }
  | .readyErrorHandler =>
    let reason := match event with
      | .error reason => reason
      | _ => []
    { n.detachReadyListeners with opened := n.opened.settle (.rejected reason) }
  | .handleOpen => n
  | .handleMessage =>
    match event with
    | .message (some data) =>
      if n.detached then n
      else { n with calls := n.calls ++ n.messageHandlers.map (.message · data) }
    | _ => n
  | .handleError => n.report event WEBSOCKET_NETWORK_SCOPE.browser
  | .handleClose => n.report event WEBSOCKET_NETWORK_SCOPE.browserClose

/-- The socket fires an event. -/
def fire (n : BrowserWebSocketNetwork) (event : WebSocketEvent) : BrowserWebSocketNetwork :=
  WebSocketCompartible.dispatch (·.ws) (fun n ws => { n with ws }) (call event) event.type
    { n with ws := n.ws.turn event.type }

end BrowserWebSocketNetwork

/-! ## The adapter of a socket of its own -/

inductive OwnedListener where
  | onOpen
  | onError
  | onClose
  | handleOpen
  | handleMessage
  | handleError
  | handleClose
  deriving DecidableEq

/-- `settled` and `timer` are the locals of `buildOpened`; `timer` tells whether its timer
runs. -/
structure OwnedWebSocketNetwork where
  ws : WebSocketCompartible OwnedListener
  openHandlers : List Nat
  messageHandlers : List Nat
  errorHandlers : List Nat
  opened : OpenPromise
  closed : Bool
  hasOpened : Bool
  settled : Bool
  timer : Bool
  connectTimeoutMs : Nat
  calls : List HandlerCall
  deriving DecidableEq

namespace OwnedWebSocketNetwork

/-- The promise of the socket that `socketFactory` made, and its listeners. -/
def buildOpened (n : OwnedWebSocketNetwork) : OwnedWebSocketNetwork :=
  if n.ws.isOpen then { n with opened := .resolved }
  else
    { n with
      timer := 0 < n.connectTimeoutMs
      ws := ((n.ws.addEventListener .opens .onOpen true).addEventListener .error .onError
        true).addEventListener .close .onClose true }

def create (ws : WebSocketCompartible OwnedListener) (connectTimeoutMs : Option Nat) :
    OwnedWebSocketNetwork :=
  let n := buildOpened
    { ws := { ws with listeners := [] }
      openHandlers := []
      messageHandlers := []
      errorHandlers := []
      opened := .pending
      closed := false
      hasOpened := false
      settled := false
      timer := false
      connectTimeoutMs := connectTimeoutMs.getD 15000
      calls := [] }
  { n with
    ws := (((n.ws.addEventListener .opens .handleOpen false).addEventListener .message
      .handleMessage false).addEventListener .error .handleError false).addEventListener .close
      .handleClose false }

/-- `none` where it throws. -/
def onOpen (n : OwnedWebSocketNetwork) (handler : Nat) : Option OwnedWebSocketNetwork :=
  if n.closed then none
  else if n.hasOpened ∨ n.ws.isOpen then some { n with calls := n.calls ++ [.opens handler] }
  else some { n with openHandlers := subscribed n.openHandlers handler }

def ready (n : OwnedWebSocketNetwork) : ReadyPromise :=
  if n.closed then .refused (lit "@network connection error: closed - ownedWebSocket.ready")
  else .opened

/-- `none` where it throws. -/
def onMessage (n : OwnedWebSocketNetwork) (handler : Nat) : Option OwnedWebSocketNetwork :=
  if n.closed then none
  else some { n with messageHandlers := subscribed n.messageHandlers handler }

def onError (n : OwnedWebSocketNetwork) (handler : Nat) : OwnedWebSocketNetwork :=
  { n with errorHandlers := subscribed n.errorHandlers handler }

/-- `throws` tells whether the `close` of the socket throws. -/
def close (n : OwnedWebSocketNetwork) (throws : Bool) : OwnedWebSocketNetwork :=
  if n.closed then n
  else
    let ws := (((n.ws.removeEventListener .opens .handleOpen).removeEventListener .message
      .handleMessage).removeEventListener .error .handleError).removeEventListener .close
      .handleClose
    { n with
      closed := true
      openHandlers := []
      messageHandlers := []
      errorHandlers := []
      ws := if throws then ws else ws.close }

def cleanup (n : OwnedWebSocketNetwork) : OwnedWebSocketNetwork :=
  { n with
    timer := false
    ws := ((n.ws.removeEventListener .opens .onOpen).removeEventListener .error
      .onError).removeEventListener .close .onClose }

/-- `resolveOnce` and `rejectOnce`. -/
def settleOnce (n : OwnedWebSocketNetwork) (result : OpenPromise) : OwnedWebSocketNetwork :=
  if n.settled then n
  else { cleanup { n with settled := true } with opened := n.opened.settle result }

/-- The timer of `buildOpened` is over. -/
def timeout (n : OwnedWebSocketNetwork) (throws : Bool) : OwnedWebSocketNetwork :=
  ({ n with timer := false }.settleOnce (.rejected (lit "timeout waiting for WebSocket open: " ++
    natText n.connectTimeoutMs ++ lit "ms"))).close throws

/-- The error handlers are told of an event. -/
def report (n : OwnedWebSocketNetwork) (event : WebSocketEvent) (scope : JSString) :
    OwnedWebSocketNetwork :=
  if n.closed then n
  else { n with calls := n.calls ++ n.errorHandlers.map (.error · event scope) }

/-- What a listener does with an event. -/
def call (event : WebSocketEvent) (n : OwnedWebSocketNetwork) :
    OwnedListener → OwnedWebSocketNetwork
  | .onOpen => n.settleOnce .resolved
  | .onError =>
    n.settleOnce (.rejected (match event with
      | .error reason => reason
      | _ => []))
  | .onClose => n.settleOnce (.rejected (lit "WebSocket closed before open"))
  | .handleOpen =>
    if n.closed ∨ n.hasOpened then n
    else
      { n with
        hasOpened := true
        calls := n.calls ++ n.openHandlers.map .opens
        openHandlers := [] }
  | .handleMessage =>
    match event with
    | .message (some data) =>
      if n.closed then n
      else { n with calls := n.calls ++ n.messageHandlers.map (.message · data) }
    | _ => n
  | .handleError => n.report event WEBSOCKET_NETWORK_SCOPE.owned
  | .handleClose => n.report event WEBSOCKET_NETWORK_SCOPE.ownedClose

/-- The socket fires an event. -/
def fire (n : OwnedWebSocketNetwork) (event : WebSocketEvent) : OwnedWebSocketNetwork :=
  WebSocketCompartible.dispatch (·.ws) (fun n ws => { n with ws }) (call event) event.type
    { n with ws := n.ws.turn event.type }

end OwnedWebSocketNetwork

/-! ## What a run shows -/

/-- An adapter with the state its socket had first, the types of the events since, and
what `ready` returned while the socket was not open. -/
structure Awaited (N : Type) where
  network : N
  first : SocketReadyState
  history : List WebSocketEventType
  promises : List ReadyPromise

namespace Awaited

variable {N : Type}

/-- The socket has opened. -/
def Opened (a : Awaited N) : Prop := a.first = .opened ∨ .opens ∈ a.history

/-- The socket has opened, errored or closed. -/
def Passed (a : Awaited N) : Prop :=
  a.Opened ∨ .error ∈ a.history ∨ a.first = .closed ∨ .close ∈ a.history

/-- The socket has neither opened nor errored. -/
def Quiet (a : Awaited N) : Prop := ¬ a.Opened ∧ .error ∉ a.history

/-- Once the socket has opened, errored or closed, or the adapter was closed, every
promise is settled; and it is resolved only if the socket opened. -/
def Settles (a : Awaited N) (opened : OpenPromise) (closed : Prop) : Prop :=
  ∀ p ∈ a.promises,
    (a.Passed ∨ closed → p.value opened ≠ .pending) ∧ (p.value opened = .resolved → a.Opened)

instance (a : Awaited N) : Decidable a.Opened := by
  unfold Opened
  infer_instance

instance (a : Awaited N) : Decidable a.Quiet := by
  unfold Quiet
  infer_instance

end Awaited

inductive BrowserAction where
  | fires (event : WebSocketEvent)
  | closing
  | ready
  | onMessage (handler : Nat)
  | offMessage (handler : Nat)
  | onError (handler : Nat)
  | offError (handler : Nat)
  | close
  | detach
  deriving DecidableEq

inductive OwnedAction where
  | fires (event : WebSocketEvent)
  | closing
  | timeout (throws : Bool)
  | ready
  | onOpen (handler : Nat)
  | offOpen (handler : Nat)
  | onMessage (handler : Nat)
  | offMessage (handler : Nat)
  | onError (handler : Nat)
  | offError (handler : Nat)
  | close (throws : Bool)
  deriving DecidableEq

def OwnedAction.isTimeout : OwnedAction → Bool
  | .timeout _ => true
  | _ => false

namespace BrowserWebSocketNetwork

/-- The adapter after an action; a call that throws changes nothing. -/
def act (n : BrowserWebSocketNetwork) : BrowserAction → BrowserWebSocketNetwork
  | .fires event => n.fire event
  | .closing => { n with ws := n.ws.close }
  | .ready => n
  | .onMessage handler => (n.onMessage handler).getD n
  | .offMessage handler => { n with messageHandlers := n.messageHandlers.erase handler }
  | .onError handler => n.onError handler
  | .offError handler => { n with errorHandlers := n.errorHandlers.erase handler }
  | .close => n.close
  | .detach => n.detach

def step (a : Awaited BrowserWebSocketNetwork) (e : BrowserAction) :
    Option (Awaited BrowserWebSocketNetwork) :=
  some
    { a with
      network := a.network.act e
      history := match e with
        | .fires event => event.type :: a.history
        | _ => a.history
      promises :=
        if e = .ready ∧ ¬ a.network.ws.isOpen then a.network.ready :: a.promises
        else a.promises }

/-- A new adapter of a socket. -/
def begin (ws : WebSocketCompartible BrowserListener) : Awaited BrowserWebSocketNetwork :=
  ⟨create ws, ws.state, [], []⟩

def ReadySettles (a : Awaited BrowserWebSocketNetwork) : Prop :=
  a.Settles a.network.opened (a.network.detached = true)

/-- The socket does not close and the adapter is not closed or detached while the promise
`opened` is waited for; and `ready` is not called first once the socket has closed. -/
def Heeded (a : Awaited BrowserWebSocketNetwork) : BrowserAction → Prop
  | .fires .close | .close | .detach => .opened ∈ a.promises → ¬ a.Quiet
  | .ready =>
    a.network.detached = false → a.network.ws.isOpen = false → a.Quiet →
      a.first ≠ .closed ∧ .close ∉ a.history
  | _ => True

instance (a : Awaited BrowserWebSocketNetwork) (e : BrowserAction) : Decidable (Heeded a e) := by
  unfold Heeded
  split <;> infer_instance

end BrowserWebSocketNetwork

namespace OwnedWebSocketNetwork

/-- The adapter after an action; a call that throws changes nothing. -/
def act (n : OwnedWebSocketNetwork) : OwnedAction → OwnedWebSocketNetwork
  | .fires event => n.fire event
  | .closing => { n with ws := n.ws.close }
  | .timeout throws => n.timeout throws
  | .ready => n
  | .onOpen handler => (n.onOpen handler).getD n
  | .offOpen handler => { n with openHandlers := n.openHandlers.erase handler }
  | .onMessage handler => (n.onMessage handler).getD n
  | .offMessage handler => { n with messageHandlers := n.messageHandlers.erase handler }
  | .onError handler => n.onError handler
  | .offError handler => { n with errorHandlers := n.errorHandlers.erase handler }
  | .close throws => n.close throws

/-- `none` for a timer that does not run. -/
def step (a : Awaited OwnedWebSocketNetwork) (e : OwnedAction) :
    Option (Awaited OwnedWebSocketNetwork) :=
  if e.isTimeout ∧ ¬ a.network.timer then none
  else
    some
      { a with
        network := a.network.act e
        history := match e with
          | .fires event => event.type :: a.history
          | _ => a.history
        promises :=
          if e = .ready ∧ ¬ a.network.ws.isOpen then a.network.ready :: a.promises
          else a.promises }

/-- A new adapter of a socket. -/
def begin (ws : WebSocketCompartible OwnedListener) (connectTimeoutMs : Option Nat) :
    Awaited OwnedWebSocketNetwork :=
  ⟨create ws connectTimeoutMs, ws.state, [], []⟩

/-- A closed adapter's socket is to fire its close event. -/
def ReadySettles (a : Awaited OwnedWebSocketNetwork) : Prop :=
  a.Settles a.network.opened (a.network.closed = true ∧ .close ∈ a.history)

/-- `ready` is not called on the adapter of a socket that was closed from the start, with
no event since. -/
def Heeded (a : Awaited OwnedWebSocketNetwork) : OwnedAction → Prop
  | .ready =>
    a.network.closed = false → a.network.ws.isOpen = false → a.Quiet → .close ∉ a.history →
      a.first ≠ .closed
  | _ => True

instance (a : Awaited OwnedWebSocketNetwork) (e : OwnedAction) : Decidable (Heeded a e) := by
  unfold Heeded
  split <;> infer_instance

end OwnedWebSocketNetwork

/-! ## Events and calls of the socket -/

@[simp]
theorem close_listeners {L : Type} (ws : WebSocketCompartible L) :
    ws.close.listeners = ws.listeners := by
  unfold WebSocketCompartible.close
  split <;> rfl

theorem isOpen_iff {L : Type} (ws : WebSocketCompartible L) :
    ws.isOpen = true ↔ ws.state = .opened := by
  unfold WebSocketCompartible.state
  split
  · rename_i isOpen
    exact iff_of_true isOpen rfl
  · rename_i closed
    refine iff_of_false closed ?_
    split <;> try split
    all_goals exact SocketReadyState.noConfusion

theorem opened_fires {N : Type} (a : Awaited N) (n : N) (type : WebSocketEventType) :
    ({ a with network := n, history := type :: a.history } : Awaited N).Opened ↔
      type = .opens ∨ a.Opened := by
  simp only [Awaited.Opened, List.mem_cons, eq_comm]
  tauto

theorem quiet_fires {N : Type} (a : Awaited N) (n : N) (type : WebSocketEventType) :
    ({ a with network := n, history := type :: a.history } : Awaited N).Quiet ↔
      type ≠ .opens ∧ type ≠ .error ∧ a.Quiet := by
  rw [Awaited.Quiet, opened_fires, Awaited.Quiet, List.mem_cons,
    eq_comm (a := WebSocketEventType.error)]
  tauto

/-! ## The browser's adapter, by stages -/

namespace BrowserWebSocketNetwork

variable {a a' : Awaited BrowserWebSocketNetwork} {e : BrowserAction}

/-- The listeners of an adapter that is not detached. -/
def standing : List (EventListener BrowserListener) :=
  [⟨.opens, .handleOpen, false⟩, ⟨.message, .handleMessage, false⟩, ⟨.error, .handleError, false⟩,
    ⟨.close, .handleClose, false⟩]

/-- The listeners that settle `opened`. -/
def settling : List (EventListener BrowserListener) :=
  [⟨.opens, .readyOpenHandler, true⟩, ⟨.error, .readyErrorHandler, true⟩]

/-- What the adapter has of itself. -/
def core (n : BrowserWebSocketNetwork) :
    List (EventListener BrowserListener) × OpenPromise × Bool × Bool :=
  (n.ws.listeners, n.opened, n.readyHandlers, n.detached)

/-- The promise is waited for, or settled, or the adapter is detached. -/
inductive Stage (a : Awaited BrowserWebSocketNetwork) : Prop where
  | waiting : a.network.core = (settling ++ standing, .pending, true, false) → a.Quiet → Stage a
  | done (result : OpenPromise) : a.network.core = (standing, result, false, false) →
      result ≠ .pending → ¬ a.Quiet → (result = .resolved → a.Opened) → Stage a
  | gone (result : OpenPromise) : a.network.core = ([], result, false, true) →
      (result ≠ .pending → ¬ a.Quiet) → (result = .resolved → a.Opened) → Stage a

/-- An event where the promise is waited for. -/
theorem fire_waiting {n : BrowserWebSocketNetwork} (event : WebSocketEvent)
    (h : n.core = (settling ++ standing, .pending, true, false)) :
    (n.fire event).core = match event with
      | .opens => (standing, .resolved, false, false)
      | .error reason => (standing, .rejected reason, false, false)
      | _ => (settling ++ standing, .pending, true, false) := by
  obtain ⟨⟨OPEN, CLOSING, CLOSED, readyState, listeners⟩, messages, errors, opened, handlers,
    detached, calls⟩ := n
  obtain ⟨rfl, rfl, rfl, rfl⟩ : listeners = settling ++ standing ∧ opened = .pending ∧
      handlers = true ∧ detached = false := by simpa [core] using h
  cases event with
  | message data => cases data <;> rfl
  | _ => rfl

/-- An event where the promise is settled. -/
theorem fire_done {n : BrowserWebSocketNetwork} (event : WebSocketEvent) {result : OpenPromise}
    (h : n.core = (standing, result, false, false)) :
    (n.fire event).core = (standing, result, false, false) := by
  obtain ⟨⟨OPEN, CLOSING, CLOSED, readyState, listeners⟩, messages, errors, opened, handlers,
    detached, calls⟩ := n
  obtain ⟨rfl, rfl, rfl, rfl⟩ : listeners = standing ∧ opened = result ∧
      handlers = false ∧ detached = false := by simpa [core] using h
  cases event with
  | message data => cases data <;> rfl
  | _ => rfl

theorem fire_gone {n : BrowserWebSocketNetwork} (event : WebSocketEvent) {result : OpenPromise}
    (h : n.core = ([], result, false, true)) :
    (n.fire event).core = ([], result, false, true) := by
  obtain ⟨⟨OPEN, CLOSING, CLOSED, readyState, listeners⟩, messages, errors, opened, handlers,
    detached, calls⟩ := n
  obtain ⟨rfl, rfl, rfl, rfl⟩ : listeners = [] ∧ opened = result ∧
      handlers = false ∧ detached = true := by simpa [core] using h
  cases event <;> rfl

/-- A detached adapter has no listener left, and its promise stays as it is. -/
theorem detach_core {n : BrowserWebSocketNetwork} {result : OpenPromise} (handlers : Bool)
    (h : n.core = ((if handlers then settling else []) ++ standing, result, handlers, false)) :
    n.detach.core = ([], result, false, true) := by
  obtain ⟨⟨OPEN, CLOSING, CLOSED, readyState, listeners⟩, messages, errors, opened, handlers',
    detached, calls⟩ := n
  obtain ⟨rfl, rfl, rfl, rfl⟩ : listeners = (if handlers then settling else []) ++ standing ∧
      opened = result ∧ handlers' = handlers ∧ detached = false := by simpa [core] using h
  cases handlers' <;> rfl

theorem detach_gone {n : BrowserWebSocketNetwork} (h : n.detached = true) : n.detach = n := by
  rw [detach, if_pos h]

/-- Only an event of the socket, and a detachment, reach the core. -/
theorem act_core (n : BrowserWebSocketNetwork) (fires : ∀ event, e ≠ .fires event)
    (close : e ≠ .close) (detach : e ≠ .detach) : (n.act e).core = n.core := by
  cases e with
  | fires event => exact absurd rfl (fires event)
  | close => exact absurd rfl close
  | detach => exact absurd rfl detach
  | onMessage handler =>
    rw [act, onMessage]
    split <;> rfl
  | closing => simp [act, core]
  | _ => rfl

theorem Stage.same (h : Stage a) (core : a'.network.core = a.network.core)
    (first : a'.first = a.first) (history : a'.history = a.history) : Stage a' := by
  have opened : a'.Opened ↔ a.Opened := by rw [Awaited.Opened, Awaited.Opened, first, history]
  have quiet : a'.Quiet ↔ a.Quiet := by rw [Awaited.Quiet, Awaited.Quiet, opened, history]
  cases h with
  | waiting own silent => exact .waiting (core.trans own) (quiet.mpr silent)
  | done result own settled heard from_open =>
    exact .done result (core.trans own) settled (fun q => heard (quiet.mp q))
      fun r => opened.mpr (from_open r)
  | gone result own heard from_open =>
    exact .gone result (core.trans own) (fun settled q => heard settled (quiet.mp q))
      fun r => opened.mpr (from_open r)

theorem stage_begin (ws : WebSocketCompartible BrowserListener) : Stage (begin ws) := by
  have fresh : ({ ws with listeners := [] } : WebSocketCompartible BrowserListener).isOpen =
      ws.isOpen := rfl
  cases isOpen : ws.isOpen with
  | true =>
    have opened : (begin ws).Opened := .inl ((isOpen_iff ws).mp isOpen)
    refine .done .resolved ?_ (by decide) (fun quiet => quiet.1 opened) fun _ => opened
    simp only [begin, create, core, fresh, isOpen]
    rfl
  | false =>
    refine .waiting ?_ ⟨?_, (nomatch ·)⟩
    · simp only [begin, create, core, fresh, isOpen]
      rfl
    · rintro (opened | heard)
      · rw [(isOpen_iff ws).mpr opened] at isOpen
        cases isOpen
      · cases heard

/-- What `ReadySettles` says of the promise `opened`. -/
theorem readySettles_iff : ReadySettles a ↔ (.opened ∈ a.promises →
    (a.Passed ∨ a.network.detached = true → a.network.opened ≠ .pending) ∧
      (a.network.opened = .resolved → a.Opened)) := by
  constructor
  · intro settles mem
    exact settles .opened mem
  · intro own p mem
    cases p with
    | opened => exact own mem
    | refused reason => exact ⟨fun _ => OpenPromise.noConfusion, OpenPromise.noConfusion⟩

theorem settles_same (core : a'.network.core = a.network.core) (first : a'.first = a.first)
    (history : a'.history = a.history) (promises : a'.promises = a.promises) :
    ReadySettles a' ↔ ReadySettles a := by
  have opened : a'.network.opened = a.network.opened := congrArg (·.2.1) core
  have detached : a'.network.detached = a.network.detached := congrArg (·.2.2.2) core
  simp only [readySettles_iff, Awaited.Passed, Awaited.Opened, opened, detached, first, history,
    promises]

theorem settles_waiting (own : a.network.core = (settling ++ standing, .pending, true, false))
    (silent : a.Quiet) :
    ReadySettles a ↔ (.opened ∈ a.promises → a.first ≠ .closed ∧ .close ∉ a.history) := by
  have opened : a.network.opened = .pending := congrArg (·.2.1) own
  have attached : a.network.detached = false := congrArg (·.2.2.2) own
  rw [readySettles_iff, opened, attached]
  apply imp_congr_right
  intro _
  simp [Awaited.Passed, silent.1, silent.2]

theorem settles_done {result : OpenPromise}
    (own : a.network.core = (standing, result, false, false)) (settled : result ≠ .pending)
    (from_open : result = .resolved → a.Opened) : ReadySettles a := by
  have opened : a.network.opened = result := congrArg (·.2.1) own
  rw [readySettles_iff, opened]
  exact fun _ => ⟨fun _ => settled, from_open⟩

theorem settles_gone {result : OpenPromise} (own : a.network.core = ([], result, false, true))
    (from_open : result = .resolved → a.Opened) :
    ReadySettles a ↔ (.opened ∈ a.promises → result ≠ .pending) := by
  have opened : a.network.opened = result := congrArg (·.2.1) own
  have gone : a.network.detached = true := congrArg (·.2.2.2) own
  rw [readySettles_iff, opened, gone]
  apply imp_congr_right
  intro _
  exact ⟨fun h => h.1 (.inr rfl), fun settled => ⟨fun _ => settled, from_open⟩⟩

/-! ## One step of it -/

theorem step_fires (event : WebSocketEvent) (hstep : step a (.fires event) = some a') :
    a' = { a with network := a.network.fire event, history := event.type :: a.history } := by
  obtain rfl := Option.some.inj hstep
  simp [act]

theorem heeded_noisy (noisy : ¬ a.Quiet) (e : BrowserAction) : Heeded a e := by
  unfold Heeded
  split
  · exact fun _ => noisy
  · exact fun _ => noisy
  · exact fun _ => noisy
  · exact fun _ _ quiet => absurd quiet noisy
  · trivial

theorem heeded_gone {result : OpenPromise} (own : a.network.core = ([], result, false, true))
    (heard : .opened ∈ a.promises → ¬ a.Quiet) (e : BrowserAction) : Heeded a e := by
  have gone : a.network.detached = true := congrArg (·.2.2.2) own
  unfold Heeded
  split
  · exact heard
  · exact heard
  · exact heard
  · intro attached
    exact absurd (gone.symm.trans attached) (by decide)
  · trivial

/-- **What an event does to the promise.** -/
theorem judged_fires (event : WebSocketEvent) (stage : Stage a) (held : ReadySettles a)
    (hstep : step a (.fires event) = some a') :
    Stage a' ∧ (ReadySettles a' ↔ Heeded a (.fires event)) := by
  obtain rfl := step_fires event hstep
  have opened := opened_fires a (a.network.fire event) event.type
  have quiet := quiet_fires a (a.network.fire event) event.type
  cases stage with
  | waiting own silent =>
    have next := fire_waiting event own
    cases event with
    | opens =>
      refine ⟨.done .resolved next (by decide) (fun q => (quiet.mp q).1 rfl) fun _ =>
        opened.mpr (.inl rfl), iff_of_true ?_ trivial⟩
      exact settles_done next (by decide) fun _ => opened.mpr (.inl rfl)
    | error reason =>
      refine ⟨.done (.rejected reason) next OpenPromise.noConfusion (fun q =>
        (quiet.mp q).2.1 rfl) OpenPromise.noConfusion, iff_of_true ?_ trivial⟩
      exact settles_done next OpenPromise.noConfusion OpenPromise.noConfusion
    | message data =>
      have still := quiet.mpr ⟨nofun, nofun, silent⟩
      refine ⟨.waiting next still, iff_of_true ((settles_waiting next still).mpr ?_) trivial⟩
      intro asked
      obtain ⟨first, closed⟩ := (settles_waiting own silent).mp held asked
      exact ⟨first, by simp [closed, WebSocketEvent.type]⟩
    | close =>
      have still := quiet.mpr ⟨by decide, by decide, silent⟩
      refine ⟨.waiting next still, (settles_waiting next still).trans ?_⟩
      apply imp_congr_right
      intro _
      exact iff_of_false (fun h => h.2 List.mem_cons_self) (fun noisy => noisy silent)
  | done result own settled heard from_open =>
    have next := fire_done event own
    have later : result = .resolved → _ := fun r => opened.mpr (.inr (from_open r))
    refine ⟨.done result next settled (fun q => heard (quiet.mp q).2.2) later, iff_of_true ?_ ?_⟩
    · exact settles_done next settled later
    · exact heeded_noisy heard _
  | gone result own heard from_open =>
    have next := fire_gone event own
    have later : result = .resolved → _ := fun r => opened.mpr (.inr (from_open r))
    have asked := (settles_gone own from_open).mp held
    refine ⟨.gone result next (fun settled q => heard settled (quiet.mp q).2.2) later,
      iff_of_true ((settles_gone next later).mpr asked) ?_⟩
    exact heeded_gone own (fun mem => heard (asked mem)) _

/-- What closing or detaching the adapter does to the promise. -/
theorem judged_detach (stage : Stage a) (held : ReadySettles a)
    (h : a' = { a with network := a.network.detach }) :
    Stage a' ∧ (ReadySettles a' ↔ (.opened ∈ a.promises → ¬ a.Quiet)) := by
  have noisy : ¬ a.Quiet → ¬ a'.Quiet := by
    rw [h]
    exact id
  have later : a.Opened → a'.Opened := by
    rw [h]
    exact id
  have promises : a'.promises = a.promises := by rw [h]
  cases stage with
  | waiting own silent =>
    have next : a'.network.core = ([], .pending, false, true) := by
      rw [h]
      exact detach_core true own
    refine ⟨.gone .pending next (fun settled => absurd rfl settled) OpenPromise.noConfusion, ?_⟩
    rw [settles_gone next OpenPromise.noConfusion, promises]
    apply imp_congr_right
    intro _
    exact iff_of_false (fun settled => settled rfl) (fun noisy => noisy silent)
  | done result own settled heard from_open =>
    have next : a'.network.core = ([], result, false, true) := by
      rw [h]
      exact detach_core false own
    refine ⟨.gone result next (fun _ => noisy heard) fun r => later (from_open r), ?_⟩
    exact iff_of_true ((settles_gone next fun r => later (from_open r)).mpr fun _ => settled)
      fun _ => heard
  | gone result own heard from_open =>
    have gone : a.network.detached = true := congrArg (·.2.2.2) own
    have asked := (settles_gone own from_open).mp held
    obtain rfl : a' = a := by rw [h, detach_gone gone]
    exact ⟨.gone result own heard from_open, iff_of_true held fun mem => heard (asked mem)⟩

/-- What `ready` adds to the promises. -/
theorem judged_ready (stage : Stage a) (held : ReadySettles a) (closed : a.network.ws.isOpen = false)
    (h : a' = { a with promises := a.network.ready :: a.promises }) :
    ReadySettles a' ↔ Heeded a .ready := by
  have network : a'.network = a.network := by rw [h]
  have promises : a'.promises = a.network.ready :: a.promises := by rw [h]
  cases stage with
  | waiting own silent =>
    have attached : a.network.detached = false := congrArg (·.2.2.2) own
    have still : a'.Quiet := by
      rw [h]
      exact silent
    rw [settles_waiting (network ▸ own) still, promises, ready, attached, h]
    simp [Heeded, attached, closed, silent]
  | done result own settled heard from_open =>
    have later : a.Opened → a'.Opened := by
      rw [h]
      exact id
    exact iff_of_true (settles_done (network ▸ own) settled fun r => later (from_open r))
      (heeded_noisy heard _)
  | gone result own heard from_open =>
    have later : a.Opened → a'.Opened := by
      rw [h]
      exact id
    have gone : a.network.detached = true := congrArg (·.2.2.2) own
    have asked := (settles_gone own from_open).mp held
    refine iff_of_true ((settles_gone (network ▸ own) fun r => later (from_open r)).mpr
      fun mem => asked ?_) (heeded_gone own (fun mem => heard (asked mem)) _)
    rw [promises, ready, gone] at mem
    simpa using mem

/-- **Exactly the heeded actions keep every promise of `ready` settled.** -/
theorem judged (stage : Stage a) (held : ReadySettles a) (hstep : step a e = some a') :
    Stage a' ∧ (ReadySettles a' ↔ Heeded a e) := by
  have plain : (a.network.act e).core = a.network.core → (∀ event, e ≠ .fires event) →
      ¬ (e = .ready ∧ ¬ a.network.ws.isOpen) → Heeded a e →
        Stage a' ∧ (ReadySettles a' ↔ Heeded a e) := by
    intro core silent unasked heeded
    have history : a'.history = a.history := by
      rw [← Option.some.inj hstep]
      cases e with
      | fires event => exact absurd rfl (silent event)
      | _ => rfl
    have promises : a'.promises = a.promises := by
      rw [← Option.some.inj hstep]
      exact if_neg unasked
    obtain ⟨first, network⟩ : a'.first = a.first ∧ a'.network = a.network.act e := by
      rw [← Option.some.inj hstep]
      exact ⟨rfl, rfl⟩
    rw [← network] at core
    exact ⟨stage.same core first history,
      iff_of_true ((settles_same core first history promises).mpr held) heeded⟩
  cases e with
  | fires event => exact judged_fires event stage held hstep
  | close =>
    obtain rfl := Option.some.inj hstep
    exact judged_detach stage held rfl
  | detach =>
    obtain rfl := Option.some.inj hstep
    exact judged_detach stage held rfl
  | ready =>
    cases isOpen : a.network.ws.isOpen with
    | true =>
      refine plain rfl nofun (fun h => h.2 isOpen) ?_
      intro _ closed
      rw [isOpen] at closed
      cases closed
    | false =>
      have next : a' = { a with promises := a.network.ready :: a.promises } := by
        rw [← Option.some.inj hstep, isOpen]
        rfl
      refine ⟨stage.same ?_ ?_ ?_, judged_ready stage held isOpen next⟩
      all_goals rw [next]
  | _ => exact plain (act_core _ nofun nofun nofun) nofun nofun trivial

end BrowserWebSocketNetwork

/-! ## The owned adapter, by stages -/

namespace OwnedWebSocketNetwork

variable {a a' : Awaited OwnedWebSocketNetwork} {e : OwnedAction}

/-- The listeners of an adapter that is not closed. -/
def standing : List (EventListener OwnedListener) :=
  [⟨.opens, .handleOpen, false⟩, ⟨.message, .handleMessage, false⟩, ⟨.error, .handleError, false⟩,
    ⟨.close, .handleClose, false⟩]

/-- The listeners that settle `opened`; closing the adapter leaves them. -/
def settling : List (EventListener OwnedListener) :=
  [⟨.opens, .onOpen, true⟩, ⟨.error, .onError, true⟩, ⟨.close, .onClose, true⟩]

/-- What the adapter has of itself. -/
def core (n : OwnedWebSocketNetwork) :
    List (EventListener OwnedListener) × OpenPromise × Bool × Bool × Bool :=
  (n.ws.listeners, n.opened, n.settled, n.closed, n.timer)

/-- The core while the promise is waited for, and once it is settled. -/
def waitingCore (closed timer : Bool) :
    List (EventListener OwnedListener) × OpenPromise × Bool × Bool × Bool :=
  (settling ++ (if closed then [] else standing), .pending, false, closed, timer)

def doneCore (result : OpenPromise) (settled closed : Bool) :
    List (EventListener OwnedListener) × OpenPromise × Bool × Bool × Bool :=
  (if closed then [] else standing, result, settled, closed, false)

/-- The promise is waited for, or settled: by an event of the socket, or by the timer,
which closes the adapter. -/
inductive Stage (a : Awaited OwnedWebSocketNetwork) : Prop where
  | waiting (closed timer : Bool) : a.network.core = waitingCore closed timer → a.Quiet →
      .close ∉ a.history → Stage a
  | done (result : OpenPromise) (settled closed : Bool) :
      a.network.core = doneCore result settled closed → result ≠ .pending →
      (result = .resolved → a.Opened) → (closed = false → a.Quiet → .close ∈ a.history) → Stage a

theorem fire_waiting {n : OwnedWebSocketNetwork} {closed timer : Bool} (event : WebSocketEvent)
    (h : n.core = waitingCore closed timer) :
    (n.fire event).core = match event with
      | .opens => doneCore .resolved true closed
      | .error reason => doneCore (.rejected reason) true closed
      | .close => doneCore (.rejected (lit "WebSocket closed before open")) true closed
      | .message _ => waitingCore closed timer := by
  obtain ⟨⟨OPEN, CLOSING, CLOSED, readyState, listeners⟩, opens, messages, errors, opened, closed',
    hasOpened, settled, timer', connectTimeoutMs, calls⟩ := n
  obtain ⟨rfl, rfl, rfl, rfl, rfl⟩ : listeners = settling ++ (if closed then [] else standing) ∧
      opened = .pending ∧ settled = false ∧ closed' = closed ∧ timer' = timer := by
    simpa [core, waitingCore] using h
  cases event with
  | opens => cases closed' <;> cases hasOpened <;> rfl
  | message data => cases closed' <;> cases data <;> rfl
  | error reason => cases closed' <;> rfl
  | close => cases closed' <;> rfl

theorem fire_done {n : OwnedWebSocketNetwork} {result : OpenPromise} {settled closed : Bool}
    (event : WebSocketEvent) (h : n.core = doneCore result settled closed) :
    (n.fire event).core = doneCore result settled closed := by
  obtain ⟨⟨OPEN, CLOSING, CLOSED, readyState, listeners⟩, opens, messages, errors, opened, closed',
    hasOpened, settled', timer, connectTimeoutMs, calls⟩ := n
  obtain ⟨rfl, rfl, rfl, rfl, rfl⟩ : listeners = (if closed then [] else standing) ∧
      opened = result ∧ settled' = settled ∧ closed' = closed ∧ timer = false := by
    simpa [core, doneCore] using h
  cases event with
  | opens => cases closed' <;> cases hasOpened <;> rfl
  | message data => cases closed' <;> cases data <;> rfl
  | error reason => cases closed' <;> rfl
  | close => cases closed' <;> rfl

/-- Closing leaves the listeners that settle the promise, and its timer. -/
theorem close_waiting {n : OwnedWebSocketNetwork} {closed timer : Bool} (throws : Bool)
    (h : n.core = waitingCore closed timer) : (n.close throws).core = waitingCore true timer := by
  obtain ⟨ws, opens, messages, errors, opened, closed', hasOpened, settled, timer',
    connectTimeoutMs, calls⟩ := n
  obtain ⟨own, rfl, rfl, rfl, rfl⟩ : ws.listeners = settling ++ (if closed then [] else standing) ∧
      opened = .pending ∧ settled = false ∧ closed' = closed ∧ timer' = timer := by
    simpa [core, waitingCore] using h
  cases closed' with
  | true => simpa [close, core, waitingCore] using own
  | false =>
    cases throws <;>
      simp [close, core, waitingCore, WebSocketCompartible.removeEventListener, own, settling,
        standing]

theorem close_done {n : OwnedWebSocketNetwork} {result : OpenPromise} {settled closed : Bool}
    (throws : Bool) (h : n.core = doneCore result settled closed) :
    (n.close throws).core = doneCore result settled true := by
  obtain ⟨ws, opens, messages, errors, opened, closed', hasOpened, settled', timer,
    connectTimeoutMs, calls⟩ := n
  obtain ⟨own, rfl, rfl, rfl, rfl⟩ : ws.listeners = (if closed then [] else standing) ∧
      opened = result ∧ settled' = settled ∧ closed' = closed ∧ timer = false := by
    simpa [core, doneCore] using h
  cases closed' with
  | true => simpa [close, core, doneCore] using own
  | false =>
    cases throws <;>
      simp [close, core, doneCore, WebSocketCompartible.removeEventListener, own, standing]

/-- The timer rejects the promise and closes the adapter. -/
theorem timeout_waiting {n : OwnedWebSocketNetwork} {closed timer : Bool} (throws : Bool)
    (h : n.core = waitingCore closed timer) :
    (n.timeout throws).core = doneCore (.rejected (lit "timeout waiting for WebSocket open: " ++
      natText n.connectTimeoutMs ++ lit "ms")) true true := by
  refine @close_done _ _ _ closed throws ?_
  obtain ⟨⟨OPEN, CLOSING, CLOSED, readyState, listeners⟩, opens, messages, errors, opened, closed',
    hasOpened, settled, timer', connectTimeoutMs, calls⟩ := n
  obtain ⟨rfl, rfl, rfl, rfl, rfl⟩ : listeners = settling ++ (if closed then [] else standing) ∧
      opened = .pending ∧ settled = false ∧ closed' = closed ∧ timer' = timer := by
    simpa [core, waitingCore] using h
  cases closed' <;> rfl

/-- Only an event of the socket, the timer and `close` reach the core. -/
theorem act_core (n : OwnedWebSocketNetwork) (fires : ∀ event, e ≠ .fires event)
    (timeout : ∀ throws, e ≠ .timeout throws) (close : ∀ throws, e ≠ .close throws) :
    (n.act e).core = n.core := by
  cases e with
  | fires event => exact absurd rfl (fires event)
  | timeout throws => exact absurd rfl (timeout throws)
  | close throws => exact absurd rfl (close throws)
  | onOpen handler =>
    rw [act, onOpen]
    split
    · rfl
    · split <;> rfl
  | onMessage handler =>
    rw [act, onMessage]
    split <;> rfl
  | closing => simp [act, core]
  | _ => rfl

theorem Stage.same (h : Stage a) (core : a'.network.core = a.network.core)
    (first : a'.first = a.first) (history : a'.history = a.history) : Stage a' := by
  have opened : a'.Opened ↔ a.Opened := by rw [Awaited.Opened, Awaited.Opened, first, history]
  have quiet : a'.Quiet ↔ a.Quiet := by rw [Awaited.Quiet, Awaited.Quiet, opened, history]
  cases h with
  | waiting closed timer own silent unclosed =>
    rw [← history] at unclosed
    exact .waiting closed timer (core.trans own) (quiet.mpr silent) unclosed
  | done result settled closed own full from_open heard =>
    rw [← history] at heard
    exact .done result settled closed (core.trans own) full (fun r => opened.mpr (from_open r))
      fun attached q => heard attached (quiet.mp q)

theorem stage_begin (ws : WebSocketCompartible OwnedListener) (connectTimeoutMs : Option Nat) :
    Stage (begin ws connectTimeoutMs) := by
  have fresh : ({ ws with listeners := [] } : WebSocketCompartible OwnedListener).isOpen =
      ws.isOpen := rfl
  cases isOpen : ws.isOpen with
  | true =>
    have opened : (begin ws connectTimeoutMs).Opened := .inl ((isOpen_iff ws).mp isOpen)
    refine .done .resolved false false ?_ (by decide) (fun _ => opened) fun _ quiet =>
      absurd opened quiet.1
    simp only [begin, create, buildOpened, core, fresh, isOpen]
    rfl
  | false =>
    refine .waiting false (0 < connectTimeoutMs.getD 15000) ?_ ⟨?_, (nomatch ·)⟩ (nomatch ·)
    · simp only [begin, create, buildOpened, core, fresh, isOpen]
      rfl
    · rintro (opened | heard)
      · rw [(isOpen_iff ws).mpr opened] at isOpen
        cases isOpen
      · cases heard

/-- What `ReadySettles` says of the promise `opened`. -/
theorem readySettles_iff : ReadySettles a ↔ (.opened ∈ a.promises →
    (a.Passed → a.network.opened ≠ .pending) ∧ (a.network.opened = .resolved → a.Opened)) := by
  have passed : a.Passed ∨ (a.network.closed = true ∧ .close ∈ a.history) ↔ a.Passed :=
    ⟨fun h => h.elim id fun closed => .inr (.inr (.inr closed.2)), .inl⟩
  constructor
  · intro settles mem
    have own := settles .opened mem
    rw [passed] at own
    exact own
  · intro own p mem
    cases p with
    | opened =>
      rw [passed]
      exact own mem
    | refused reason => exact ⟨fun _ => OpenPromise.noConfusion, OpenPromise.noConfusion⟩

theorem settles_same (core : a'.network.core = a.network.core) (first : a'.first = a.first)
    (history : a'.history = a.history) (promises : a'.promises = a.promises) :
    ReadySettles a' ↔ ReadySettles a := by
  have opened : a'.network.opened = a.network.opened := congrArg (·.2.1) core
  simp only [readySettles_iff, Awaited.Passed, Awaited.Opened, opened, first, history, promises]

theorem settles_waiting {closed timer : Bool} (own : a.network.core = waitingCore closed timer)
    (silent : a.Quiet) (unclosed : .close ∉ a.history) :
    ReadySettles a ↔ (.opened ∈ a.promises → a.first ≠ .closed) := by
  have opened : a.network.opened = .pending := congrArg (·.2.1) own
  rw [readySettles_iff, opened]
  apply imp_congr_right
  intro _
  simp [Awaited.Passed, silent.1, silent.2, unclosed]

theorem settles_done {result : OpenPromise} {settled closed : Bool}
    (own : a.network.core = doneCore result settled closed) (full : result ≠ .pending)
    (from_open : result = .resolved → a.Opened) : ReadySettles a := by
  have opened : a.network.opened = result := congrArg (·.2.1) own
  rw [readySettles_iff, opened]
  exact fun _ => ⟨fun _ => full, from_open⟩

/-! ## One step of it -/

/-- **What an event does to the promise.** -/
theorem settles_fires (event : WebSocketEvent) (stage : Stage a) (held : ReadySettles a)
    (h : a' = { a with
      network := a.network.fire event
      history := event.type :: a.history }) : Stage a' ∧ ReadySettles a' := by
  have opened := opened_fires a (a.network.fire event) event.type
  have quiet := quiet_fires a (a.network.fire event) event.type
  have network : a'.network = a.network.fire event := by rw [h]
  have history : a'.history = event.type :: a.history := by rw [h]
  have promises : a'.promises = a.promises := by rw [h]
  have first : a'.first = a.first := by rw [h]
  rw [← h] at opened quiet
  cases stage with
  | waiting closed timer own silent unclosed =>
    have next := network ▸ fire_waiting event own
    have settled : ∀ result, a'.network.core = doneCore result true closed → result ≠ .pending →
        (result = .resolved → event.type = .opens) →
        (a'.Quiet → event.type = .close) → Stage a' ∧ ReadySettles a' := by
      intro result own full from_open heard
      have later : result = .resolved → a'.Opened := fun r => opened.mpr (.inl (from_open r))
      refine ⟨.done result true closed own full later fun _ q => ?_, settles_done own full later⟩
      rw [history, heard q]
      exact List.mem_cons_self
    cases event with
    | opens => exact settled _ next (by decide) (fun _ => rfl) fun q => absurd rfl (quiet.mp q).1
    | error reason =>
      exact settled _ next OpenPromise.noConfusion OpenPromise.noConfusion fun q =>
        absurd rfl (quiet.mp q).2.1
    | close => exact settled _ next OpenPromise.noConfusion OpenPromise.noConfusion fun _ => rfl
    | message data =>
      have still : a'.Quiet := quiet.mpr ⟨nofun, nofun, silent⟩
      have unclosed' : .close ∉ a'.history := by simp [history, unclosed, WebSocketEvent.type]
      refine ⟨.waiting closed timer next still unclosed',
        (settles_waiting next still unclosed').mpr ?_⟩
      rw [promises, first]
      exact (settles_waiting own silent unclosed).mp held
  | done result settled closed own full from_open heard =>
    have next := network ▸ fire_done event own
    have later : result = .resolved → a'.Opened := fun r => opened.mpr (.inr (from_open r))
    refine ⟨.done result settled closed next full later fun attached q => ?_,
      settles_done next full later⟩
    rw [history]
    exact List.mem_cons_of_mem _ (heard attached (quiet.mp q).2.2)

/-- What `close` does to the promise. -/
theorem settles_close (throws : Bool) (stage : Stage a) (held : ReadySettles a)
    (h : a' = { a with network := a.network.close throws }) : Stage a' ∧ ReadySettles a' := by
  obtain ⟨first, history, promises⟩ : a'.first = a.first ∧ a'.history = a.history ∧
      a'.promises = a.promises := by
    rw [h]
    exact ⟨rfl, rfl, rfl⟩
  have network : a'.network = a.network.close throws := by rw [h]
  have opened : a'.Opened ↔ a.Opened := by rw [Awaited.Opened, Awaited.Opened, first, history]
  have quiet : a'.Quiet ↔ a.Quiet := by rw [Awaited.Quiet, Awaited.Quiet, opened, history]
  cases stage with
  | waiting closed timer own silent unclosed =>
    have next := network ▸ close_waiting throws own
    have still := quiet.mpr silent
    have unclosed' := history ▸ unclosed
    refine ⟨.waiting true timer next still unclosed',
      (settles_waiting next still unclosed').mpr ?_⟩
    rw [promises, first]
    exact (settles_waiting own silent unclosed).mp held
  | done result settled closed own full from_open heard =>
    have next := network ▸ close_done throws own
    have later : result = .resolved → a'.Opened := fun r => opened.mpr (from_open r)
    exact ⟨.done result settled true next full later nofun, settles_done next full later⟩

/-- What the timer does to it. -/
theorem settles_timeout (throws : Bool) (stage : Stage a) (runs : a.network.timer = true)
    (h : a'.network = a.network.timeout throws) : Stage a' ∧ ReadySettles a' := by
  cases stage with
  | waiting closed timer own silent unclosed =>
    have next := h ▸ timeout_waiting throws own
    exact ⟨.done _ true true next OpenPromise.noConfusion OpenPromise.noConfusion nofun,
      settles_done next OpenPromise.noConfusion OpenPromise.noConfusion⟩
  | done result settled closed own full from_open heard =>
    have timer : a.network.timer = false := congrArg (·.2.2.2.2) own
    rw [runs] at timer
    cases timer

/-- What `ready` adds to the promises. -/
theorem judged_ready (stage : Stage a) (held : ReadySettles a) (isOpen : a.network.ws.isOpen = false)
    (h : a' = { a with promises := a.network.ready :: a.promises }) :
    ReadySettles a' ↔ Heeded a .ready := by
  obtain ⟨network, first, history⟩ : a'.network = a.network ∧ a'.first = a.first ∧
      a'.history = a.history := by
    rw [h]
    exact ⟨rfl, rfl, rfl⟩
  have promises : a'.promises = a.network.ready :: a.promises := by rw [h]
  have opened : a'.Opened ↔ a.Opened := by rw [Awaited.Opened, Awaited.Opened, first, history]
  have quiet : a'.Quiet ↔ a.Quiet := by rw [Awaited.Quiet, Awaited.Quiet, opened, history]
  cases stage with
  | waiting closed timer own silent unclosed =>
    have asked := (settles_waiting own silent unclosed).mp held
    have flag : a.network.closed = closed := congrArg (·.2.2.2.1) own
    rw [settles_waiting (network ▸ own) (quiet.mpr silent) (history ▸ unclosed), promises, first,
      ready, flag]
    cases closed with
    | true => simpa [Heeded, flag] using asked
    | false => simp [Heeded, flag, isOpen, silent, unclosed]
  | done result settled closed own full from_open heard =>
    have flag : a.network.closed = closed := congrArg (·.2.2.2.1) own
    refine iff_of_true (settles_done (network ▸ own) full fun r => opened.mpr (from_open r)) ?_
    intro attached _ silent unclosed
    exact absurd (heard (flag.symm.trans attached) silent) unclosed

/-- **Exactly the heeded actions keep every promise of `ready` settled.** -/
theorem judged (stage : Stage a) (held : ReadySettles a) (hstep : step a e = some a') :
    Stage a' ∧ (ReadySettles a' ↔ Heeded a e) := by
  unfold step at hstep
  split at hstep
  · cases hstep
  · rename_i enabled
    have next := Option.some.inj hstep
    have plain : (a.network.act e).core = a.network.core → (∀ event, e ≠ .fires event) →
        ¬ (e = .ready ∧ ¬ a.network.ws.isOpen) → Heeded a e →
          Stage a' ∧ (ReadySettles a' ↔ Heeded a e) := by
      intro core silent unasked heeded
      have history : a'.history = a.history := by
        rw [← next]
        cases e with
        | fires event => exact absurd rfl (silent event)
        | _ => rfl
      have promises : a'.promises = a.promises := by
        rw [← next]
        exact if_neg unasked
      obtain ⟨first, network⟩ : a'.first = a.first ∧ a'.network = a.network.act e := by
        rw [← next]
        exact ⟨rfl, rfl⟩
      rw [← network] at core
      exact ⟨stage.same core first history,
        iff_of_true ((settles_same core first history promises).mpr held) heeded⟩
    cases e with
    | fires event =>
      obtain ⟨stage', settles⟩ := settles_fires event stage held (by simpa [act] using next.symm)
      exact ⟨stage', iff_of_true settles trivial⟩
    | close throws =>
      obtain ⟨stage', settles⟩ := settles_close throws stage held (by simpa [act] using next.symm)
      exact ⟨stage', iff_of_true settles trivial⟩
    | timeout throws =>
      have runs : a.network.timer = true := by simpa [OwnedAction.isTimeout] using enabled
      obtain ⟨stage', settles⟩ : Stage a' ∧ ReadySettles a' :=
        settles_timeout throws stage runs (by rw [← next]; rfl)
      exact ⟨stage', iff_of_true settles trivial⟩
    | ready =>
      cases isOpen : a.network.ws.isOpen with
      | true =>
        refine plain rfl nofun (fun h => h.2 isOpen) ?_
        intro _ closed
        rw [isOpen] at closed
        cases closed
      | false =>
        have added : a' = { a with promises := a.network.ready :: a.promises } := by
          rw [← next, isOpen]
          rfl
        refine ⟨stage.same ?_ ?_ ?_, judged_ready stage held isOpen added⟩
        all_goals rw [added]
    | _ => exact plain (act_core _ nofun nofun nofun) nofun nofun trivial

end OwnedWebSocketNetwork

/-! ## Runs -/

/-- **When `ready` settles.** In every state of a run of either adapter, every promise that
`ready` returned before the socket was open is settled once the socket has opened, errored
or closed or the adapter was closed or detached, and resolved only if the socket opened,
exactly if every action of the run is heeded. -/
theorem ready_always_settles {ws : WebSocketCompartible BrowserListener}
    {es : List BrowserAction} {a : Awaited BrowserWebSocketNetwork}
    {ownWs : WebSocketCompartible OwnedListener} {connectTimeoutMs : Option Nat}
    {ownEs : List OwnedAction} {b : Awaited OwnedWebSocketNetwork}
    (browser : exec BrowserWebSocketNetwork.step (BrowserWebSocketNetwork.begin ws) es = some a)
    (owned : exec OwnedWebSocketNetwork.step (OwnedWebSocketNetwork.begin ownWs connectTimeoutMs)
      ownEs = some b) :
    ((∀ pre u, pre <+: es →
        exec BrowserWebSocketNetwork.step (BrowserWebSocketNetwork.begin ws) pre = some u →
          BrowserWebSocketNetwork.ReadySettles u) ↔
      Run BrowserWebSocketNetwork.step BrowserWebSocketNetwork.Heeded
        (BrowserWebSocketNetwork.begin ws) es a) ∧
    ((∀ pre u, pre <+: ownEs →
        exec OwnedWebSocketNetwork.step (OwnedWebSocketNetwork.begin ownWs connectTimeoutMs) pre =
            some u →
          OwnedWebSocketNetwork.ReadySettles u) ↔
      Run OwnedWebSocketNetwork.step OwnedWebSocketNetwork.Heeded
        (OwnedWebSocketNetwork.begin ownWs connectTimeoutMs) ownEs b) := by
  constructor
  · exact exec_judged_iff (fun _ _ _ => BrowserWebSocketNetwork.judged)
      (BrowserWebSocketNetwork.stage_begin ws) (fun _ mem => (nomatch mem)) browser
  · exact exec_judged_iff (fun _ _ _ => OwnedWebSocketNetwork.judged)
      (OwnedWebSocketNetwork.stage_begin ownWs connectTimeoutMs) (fun _ mem => (nomatch mem)) owned

/-- A socket that opens and closes under the first adapter, and one that closes after the
second adapter is closed. -/
theorem ready_always_settles_opened :
    ∃ a b, exec BrowserWebSocketNetwork.step
        (BrowserWebSocketNetwork.begin ⟨none, none, none, 0, []⟩)
        [.ready, .fires .opens, .fires .close, .detach] = some a ∧
      a.promises = [.opened] ∧ BrowserWebSocketNetwork.ReadySettles a ∧
      exec OwnedWebSocketNetwork.step
        (OwnedWebSocketNetwork.begin ⟨none, none, none, 0, []⟩ none)
        [.ready, .close false, .fires .close] = some b ∧
      b.promises = [.opened] ∧ OwnedWebSocketNetwork.ReadySettles b := by
  obtain ⟨a, run⟩ := Run.of_allGood BrowserWebSocketNetwork.step BrowserWebSocketNetwork.Heeded
    (BrowserWebSocketNetwork.begin ⟨none, none, none, 0, []⟩)
    [.ready, .fires .opens, .fires .close, .detach] (by decide)
  obtain ⟨b, own⟩ := Run.of_allGood OwnedWebSocketNetwork.step OwnedWebSocketNetwork.Heeded
    (OwnedWebSocketNetwork.begin ⟨none, none, none, 0, []⟩ none)
    [.ready, .close false, .fires .close] (by decide)
  obtain ⟨browser, owned⟩ := ready_always_settles run.exec_eq own.exec_eq
  refine ⟨a, b, run.exec_eq, run.read (by decide), ?_, own.exec_eq, own.read (by decide), ?_⟩
  · exact browser.mpr run _ a List.prefix_rfl run.exec_eq
  · exact owned.mpr own _ b List.prefix_rfl own.exec_eq

/-- The socket closes before it opens, or the adapter is detached: the promise that `ready`
returned is never settled. -/
theorem closed_before_open_is_waited_for :
    ∃ a b,
      exec BrowserWebSocketNetwork.step (BrowserWebSocketNetwork.begin ⟨none, none, none, 0, []⟩)
        [.ready, .fires .close] = some a ∧
      a.promises = [.opened] ∧ .close ∈ a.history ∧ a.network.opened = .pending ∧
      ¬ BrowserWebSocketNetwork.ReadySettles a ∧
      exec BrowserWebSocketNetwork.step (BrowserWebSocketNetwork.begin ⟨none, none, none, 0, []⟩)
        [.ready, .detach, .fires .opens, .fires .close] = some b ∧
      b.promises = [.opened] ∧ b.network.opened = .pending ∧
      ¬ BrowserWebSocketNetwork.ReadySettles b := by
  refine ⟨_, _, rfl, by decide, by decide, by decide, fun settles => ?_, rfl, by decide, by decide,
    fun settles => ?_⟩
  · have closed := (settles .opened (by decide)).1 (.inl (.inr (.inr (.inr (by decide)))))
    exact closed (by decide)
  · exact (settles .opened (by decide)).1 (.inr (by decide)) (by decide)

end LemonModel
