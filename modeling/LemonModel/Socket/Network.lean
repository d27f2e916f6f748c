import LemonModel.Text.Utf16

/-!
# Networks

The network types of `socket/types.ts`, and the in-memory `Network`. A packet
that is sent goes to the listeners there are at that moment; it is on its way
until it is delivered to them. The delay is left to the environment, so packets
may arrive in any order.
-/

namespace LemonModel

open Text

/-- `opened` is the state `'open'`. -/
inductive SocketReadyState where
  | connecting
  | opened
  | closing
  | closed
  deriving DecidableEq

namespace SocketReadyState

/-- Closing or closed. -/
def isDead : SocketReadyState → Bool
  | .closing => true
  | .closed => true
  | _ => false

def text : SocketReadyState → JSString
  | .connecting => lit "connecting"
  | .opened => lit "open"
  | .closing => lit "closing"
  | .closed => lit "closed"

end SocketReadyState

structure SocketNetworkOptions where
  latencyMs : Option Nat
  jitterMs : Option Nat
  unordered : Option Bool
  maxPacketBytes : Option Nat
  deriving DecidableEq

/-- `{ ...options, ...changes }`. -/
def SocketNetworkOptions.merge (options changes : SocketNetworkOptions) : SocketNetworkOptions :=
  ⟨changes.latencyMs <|> options.latencyMs, changes.jitterMs <|> options.jitterMs,
    changes.unordered <|> options.unordered, changes.maxPacketBytes <|> options.maxPacketBytes⟩

/-- A packet on its way, with the listeners it is for. -/
structure Delivery (H : Type) where
  data : JSString
  listeners : List H

/-- The in-memory `Network`, with the packets that wait out their delay. -/
structure Network (H : Type) where
  id : JSString
  state : SocketReadyState
  messageListeners : List H
  options : SocketNetworkOptions
  queue : List (Delivery H)

namespace Network

variable {H : Type} [DecidableEq H]

def ensureOpen (n : Network H) (scope : JSString) : Except JSString Unit :=
  if n.state = .opened then .ok ()
  else
    .error (lit "@network[" ++ n.id ++ lit "] connection error: " ++ n.state.text ++ lit " - " ++
      scope)

/-- `send`; an error is the message it throws. -/
def send (n : Network H) (data : JSString) : Except JSString (Network H) := do
  n.ensureOpen (lit "network.send")
  if n.messageListeners = [] then
    throw (lit "@network[" ++ n.id ++ lit "] is not connected - network.send(" ++ n.id ++ lit ")")
  if n.options.maxPacketBytes.any (· < byteLength data) then
    throw (lit "1009: message too big")
  return { n with queue := n.queue ++ [⟨data, n.messageListeners⟩] }

/-- `onMessage`; an error is the message it throws. -/
def onMessage (n : Network H) (handler : H) : Except JSString (Network H) := do
  n.ensureOpen (lit "network.onMessage")
  return { n with
    messageListeners :=
      if handler ∈ n.messageListeners then n.messageListeners
      else n.messageListeners ++ [handler] }

/-- What `onMessage` returns. -/
def unsubscribe (n : Network H) (handler : H) : Network H :=
  { n with messageListeners := n.messageListeners.filter (· ≠ handler) }

def configure (n : Network H) (options : SocketNetworkOptions) : Network H :=
  { n with options := n.options.merge options }

def close (n : Network H) : Network H :=
  if n.state = .closed then n else { n with state := .closed, messageListeners := [] }

/-- The delay of a packet is over: the listeners it now goes to. -/
def deliver (n : Network H) (index : Nat) : Option (Network H × Delivery H) :=
  n.queue[index]?.map fun d =>
    ({ n with queue := n.queue.eraseIdx index },
      if n.state = .opened then d else { d with listeners := [] })

end Network

end LemonModel
