import LemonModel.Base.Run
import LemonModel.Transport.State

/-!
# A transport and its environment

`Config` is a transport together with the calls it is in the middle of. The
environment decides what comes next: a packet, a timer, a call of a public
method, or the return of the innermost call. While a call is out, anything but a
timer can happen, a packet delivered from inside `network.send` included.
-/

namespace LemonModel

open Text

structure Config where
  transport : Transport
  stack : List Frame

inductive Event where
  | receive (packetString : JSString)
  | send (data : JSValue) (ids : Ids)
  /-- an interval timer of `sendReliable` -/
  | resendTick (timer : Nat)
  /-- a nack timer -/
  | fireNack (tid : JSString)
  | cleanup
  | advance (ms : Nat)
  | readyState (isOpen : Bool)
  | configure (options : SplitOptions) (partialTtlMs : Nat)
  | onMessage (listener : Nat)
  | unsubscribe (listener : Nat)
  | detach
  /-- the innermost call returns, or throws -/
  | reply (ok : Bool)

namespace Config

def start (t : Transport) : Config := ⟨t, []⟩

/-- A method ran on top of `stack`. -/
def enter (stack : List Frame) (r : Transport × Option Frame) : Config :=
  ⟨r.1, r.2.toList ++ stack⟩

/-- One event; `none` where it cannot happen. -/
def step (c : Config) : Event → Option Config
  -- nothing in `receive` asks whether the transport is attached
  | .receive text => some (enter c.stack (c.transport.receive text))
  | .send data ids => some (enter c.stack (c.transport.send data ids))
  | .resendTick timer =>
    if c.stack.isEmpty ∧ c.transport.resendTimers.has timer then
      some (enter [] (c.transport.resendTick timer))
    else none
  | .fireNack tid =>
    if c.stack.isEmpty ∧ tid ∈ c.transport.nackTimers then
      some (enter [] (c.transport.fireNack tid))
    else none
  | .cleanup => some { c with transport := c.transport.cleanup }
  | .advance ms => some { c with transport := { c.transport with now := c.transport.now + ms } }
  | .readyState isOpen => some { c with transport := { c.transport with isOpen := isOpen } }
  | .configure options partialTtlMs =>
    some { c with
      transport := { c.transport with options := options, partialTtlMs := partialTtlMs } }
  | .onMessage listener => some { c with transport := c.transport.onMessage listener }
  | .unsubscribe listener => some { c with transport := c.transport.unsubscribe listener }
  | .detach => some { c with transport := c.transport.detach }
  | .reply ok =>
    match c.stack with
    | [] => none
    | f :: rest => some (enter rest (c.transport.resume ok f))

end Config

/-! ## Calls that return -/

/-- `n` returns of whatever call is innermost. -/
def settle : Nat → Transport × Option Frame → Transport × Option Frame
  | 0, r => r
  | n + 1, (t, some f) => settle n (t.resume true f)
  | _ + 1, (t, none) => (t, none)

/-- The calls a frame can still make, at most. -/
def Frame.calls : Frame → Nat
  | .attempt _ _ rest => rest.length + 2
  | .fail _ _ => 1
  | .resend rest => rest.length + 1
  | .control => 1
  | .emit _ _ _ rest => rest.length + 2
  | .plain rest => rest.length + 1

/-- A method with every call it makes returning at once. -/
def complete (r : Transport × Option Frame) : Transport :=
  (settle ((r.2.map Frame.calls).getD 0) r).1

/-- A packet handled with every call returning at once. -/
def Transport.deliver (t : Transport) (packetString : JSString) : Transport :=
  complete (t.receive packetString)

end LemonModel
