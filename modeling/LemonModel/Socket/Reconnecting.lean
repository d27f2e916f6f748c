import Mathlib.Data.NNRat.Defs
import LemonModel.Base.Run
import LemonModel.Socket.Network

/-!
# The reconnecting network

The state of a `ReconnectingNetwork`, its methods and its environment. A method
hands control away when it calls the factory, a candidate or a handler; it then
returns the `Frame` that says what is left to do. The environment decides what
comes next: what an inner network does, a timer, a call of a public method, or
the return of the innermost call.
-/

namespace LemonModel.Reconnecting

open Text

/-- `ReconnectOptions` with its defaults in place. A limit below zero acts as
zero; how often the watchdog looks decides nothing, since it may at any moment. -/
structure ReconnectOptions where
  baseMs : ℚ≥0
  factor : ℚ≥0
  maxMs : ℚ≥0
  maxRetries : Option Nat
  idleTimeoutMs : Option Nat

def ReconnectOptions.default : ReconnectOptions := ⟨1000, (2 : Nat), 30000, none, none⟩

inductive Phase where
  | connected
  | connecting
  | backoff
  | closed
  deriving DecidableEq

/-- The scope of an error: the two closes a web socket reports, and the three of
the decorator. -/
inductive Scope where
  | ownedClose
  | browserClose
  | connect
  | factory
  | maxRetries
  | other (scope : JSString)
  deriving DecidableEq

def Scope.isClose : Scope → Bool
  | .ownedClose => true
  | .browserClose => true
  | _ => false

/-- An inner network. The flags are the subscriptions of the decorator, `queue`
the packets on their way to its message handler. -/
structure Inner where
  readyState : SocketReadyState
  hasOnOpen : Bool
  message : Bool
  error : Bool
  opens : Bool
  queue : List JSString

/-- What a decorator did, for the record. -/
inductive Effect where
  /-- `factory()` was called -/
  | factory
  /-- it returned this network -/
  | created (network : Nat)
  | wrote (phase : Phase) (network : Nat) (data : JSString)
  /-- a handler was called -/
  | message (network handler : Nat) (raw : JSString)
  | error (handler : Nat) (scope : Scope) (error : JSString)
  | reconnect (handler : Nat)
  | configured (network : Nat) (options : SocketNetworkOptions)
  /-- `send` threw -/
  | refused (error : JSString)
  /-- `failAttempt` ran -/
  | failed
  /-- `settleReconnected` ran -/
  | succeeded
  /-- `close()` returned -/
  | shut

/-- A method that has called out, and what it has left to do. -/
inductive Frame where
  /-- in `attemptReconnect`, in the order of its calls -/
  | factory
  | subscribeMessage (network : Nat)
  | subscribeError (network : Nat)
  | configure (network : Nat)
  | watchOpen (network : Nat)
  /-- in the handler loop of `failAttempt` -/
  | failing (scope : Scope) (error : JSString) (rest : List Nat)
  /-- in the handler loop of `attemptReconnect`, out of retries -/
  | givingUp (rest : List Nat)
  /-- in the handler loop of `settleReconnected` -/
  | reconnected (rest : List Nat)
  /-- in the handler loops of `attach` -/
  | heardError (network : Nat) (scope : Scope) (error : JSString) (rest : List Nat)
  | heard (network : Nat) (raw : JSString) (rest : List Nat)
  /-- in `send` or `configure` -/
  | passing

/-- A decorator. The inner networks are numbered in the order they were created;
`log` has the newest effect first. -/
structure ReconnectingNetwork where
  options : ReconnectOptions
  networks : Nat → Inner
  created : Nat
  current : Nat
  generation : Nat
  phase : Phase
  retryCount : Nat
  delayMs : ℚ≥0
  lastMessageAt : Nat
  configured : Option SocketNetworkOptions
  unsubscribeMessage : Option Nat
  unsubscribeError : Option Nat
  unsubscribeCandidateOpen : Option Nat
  reconnectTimer : Option Nat
  /-- the timeouts that are armed, each with its delay -/
  timers : List (Nat × ℚ≥0)
  nextTimer : Nat
  watchdog : Bool
  messageHandlers : List Nat
  errorHandlers : List Nat
  reconnectHandlers : List Nat
  now : Nat
  log : List Effect

namespace ReconnectingNetwork

def record (s : ReconnectingNetwork) (effect : Effect) : ReconnectingNetwork :=
  { s with log := effect :: s.log }

/-- The network `n` becomes `inner`. -/
def update (s : ReconnectingNetwork) (n : Nat) (inner : Inner) : ReconnectingNetwork :=
  { s with networks := fun m => if m = n then inner else s.networks m }

/-- What `this.current` is. -/
def inner (s : ReconnectingNetwork) : Inner := s.networks s.current

/-! ## The calls on inner networks that never throw -/

def dropMessage (s : ReconnectingNetwork) : Option Nat → ReconnectingNetwork
  | none => s
  | some n => s.update n { s.networks n with message := false }

def dropError (s : ReconnectingNetwork) : Option Nat → ReconnectingNetwork
  | none => s
  | some n => s.update n { s.networks n with error := false }

def dropOpen (s : ReconnectingNetwork) : Option Nat → ReconnectingNetwork
  | none => s
  | some n => s.update n { s.networks n with opens := false }

/-- `this.current.close()`. -/
def closeCurrent (s : ReconnectingNetwork) : ReconnectingNetwork :=
  s.update s.current { s.inner with readyState := .closed, message := false, opens := false }

/-! ## Methods -/

def readyState (s : ReconnectingNetwork) : SocketReadyState :=
  if s.phase = .closed then .closed else s.inner.readyState

/-- `this.reconnectTimer = setTimeout(…, this.delayMs)`. -/
def arm (s : ReconnectingNetwork) : ReconnectingNetwork :=
  { s with
    timers := s.timers ++ [(s.nextTimer, s.delayMs)]
    reconnectTimer := some s.nextTimer
    nextTimer := s.nextTimer + 1 }

/-- `clearTimeout(this.reconnectTimer)`. -/
def disarm (s : ReconnectingNetwork) : ReconnectingNetwork :=
  { s with timers := s.timers.filter fun x => s.reconnectTimer ≠ some x.1 }

def detach (s : ReconnectingNetwork) : ReconnectingNetwork :=
  ((s.dropMessage s.unsubscribeMessage).dropError s.unsubscribeError).dropOpen
    s.unsubscribeCandidateOpen

def clearHandlers (s : ReconnectingNetwork) : ReconnectingNetwork :=
  { s with messageHandlers := [], errorHandlers := [], reconnectHandlers := [] }

def close (s : ReconnectingNetwork) : ReconnectingNetwork :=
  if s.phase = .closed then s.record .shut
  else
    ({ s with phase := .closed, watchdog := false }.disarm.detach.closeCurrent.clearHandlers).record
      .shut

/-- While disconnected this throws; there is no queue. -/
def send (s : ReconnectingNetwork) (data : JSString) : ReconnectingNetwork × Option Frame :=
  if s.phase = .closed then
    (s.record (.refused (lit "@network is closed - reconnectingNetwork.send")), none)
  else if s.inner.readyState ≠ .opened then
    (s.record (.refused (lit "@network is not connected - reconnectingNetwork.send")), none)
  else (s.record (.wrote s.phase s.current data), some .passing)

/-- `configure`; the inner network may have none, or return at once. -/
def configure (s : ReconnectingNetwork) (options : SocketNetworkOptions) :
    ReconnectingNetwork × Option Frame :=
  let configured := (s.configured.map (·.merge options)).getD options
  ({ s with configured := some configured }.record (.configured s.current configured), some .passing)

def beginBackoff (s : ReconnectingNetwork) : ReconnectingNetwork :=
  { s.detach with phase := .backoff }.arm

/-- The handler loop of `failAttempt` and what follows it. -/
def failRest (s : ReconnectingNetwork) (scope : Scope) (error : JSString) :
    List Nat → ReconnectingNetwork × Option Frame
  | [] => ({ s with phase := .backoff }.arm, none)
  | handler :: rest => (s.record (.error handler scope error), some (.failing scope error rest))

/-- `failAttempt` up to its handler loop. -/
def countFailure (s : ReconnectingNetwork) : ReconnectingNetwork :=
  { s.detach with
    retryCount := s.retryCount + 1
    delayMs := min (s.delayMs * s.options.factor) s.options.maxMs }.record .failed

/-- A reconnect attempt failed. -/
def failAttempt (s : ReconnectingNetwork) (error : JSString) (scope : Scope) :
    ReconnectingNetwork × Option Frame :=
  s.countFailure.failRest scope error s.errorHandlers

def candidateDied : JSString := lit "@candidate network died before open - reconnectingNetwork"

def onInnerDeath (s : ReconnectingNetwork) : ReconnectingNetwork × Option Frame :=
  match s.phase with
  | .connected => (s.beginBackoff, none)
  | .connecting => s.failAttempt candidateDied .connect
  | _ => (s, none)

def reconnectedRest (s : ReconnectingNetwork) : List Nat → ReconnectingNetwork × Option Frame
  | [] => (s, none)
  | handler :: rest => (s.record (.reconnect handler), some (.reconnected rest))

/-- `settleReconnected` up to its handler loop. -/
def countSuccess (s : ReconnectingNetwork) : ReconnectingNetwork :=
  { s.dropOpen s.unsubscribeCandidateOpen with
    unsubscribeCandidateOpen := none
    phase := .connected
    generation := s.generation + 1
    retryCount := 0
    delayMs := s.options.baseMs
    lastMessageAt := s.now }.record .succeeded

/-- The candidate opened. -/
def settleReconnected (s : ReconnectingNetwork) : ReconnectingNetwork × Option Frame :=
  s.countSuccess.reconnectedRest s.reconnectHandlers

/-- Nothing has been received for too long. -/
def idle (s : ReconnectingNetwork) : Bool :=
  match s.options.idleTimeoutMs with
  | none => false
  | some ms => ms ≠ 0 && ms < s.now - s.lastMessageAt

/-- The watchdog. -/
def watch (s : ReconnectingNetwork) : ReconnectingNetwork × Option Frame :=
  match s.phase with
  | .connected =>
    if s.inner.readyState.isDead || s.idle then (s.beginBackoff, none) else (s, none)
  | .connecting =>
    if s.inner.readyState = .opened then s.settleReconnected
    else if s.inner.readyState.isDead then s.onInnerDeath
    else (s, none)
  | _ => (s, none)

def giveUpRest (s : ReconnectingNetwork) : List Nat → ReconnectingNetwork × Option Frame
  | [] => (s.clearHandlers, none)
  | handler :: rest =>
    let retries := natText (s.options.maxRetries.getD 0)
    let error := lit "@network exceeded maxRetries[" ++ retries ++ lit "] - reconnectingNetwork"
    (s.record (.error handler .maxRetries error), some (.givingUp rest))

def outOfRetries (s : ReconnectingNetwork) : Bool :=
  match s.options.maxRetries with
  | none => false
  | some retries => retries ≤ s.retryCount

/-- `attemptReconnect` up to its call of the factory. -/
def attemptReconnect (s : ReconnectingNetwork) : ReconnectingNetwork × Option Frame :=
  if s.phase = .closed then (s, none)
  else if s.outOfRetries then
    { s with phase := .closed, watchdog := false }.giveUpRest s.errorHandlers
  else (s.record .factory, some .factory)

/-- `attemptReconnect` once the factory returned a network. -/
def adopt (s : ReconnectingNetwork) (readyState : SocketReadyState) (hasOnOpen : Bool) :
    ReconnectingNetwork × Option Frame :=
  let n := s.created
  let inner : Inner := ⟨readyState, hasOnOpen, true, false, false, []⟩
  (({ s with created := n + 1, current := n }.update n inner).record (.created n),
    some (.subscribeMessage n))

/-- `attemptReconnect` once the candidate is subscribed and configured. -/
def awaitOpen (s : ReconnectingNetwork) : ReconnectingNetwork × Option Frame :=
  let s := { s with phase := .connecting }
  match s.inner.readyState with
  | .opened => s.settleReconnected
  | .connecting =>
    if s.inner.hasOnOpen then
      (s.update s.current { s.inner with opens := true }, some (.watchOpen s.current))
    else ({ s with unsubscribeCandidateOpen := none }, none)
  | _ => s.onInnerDeath

/-- The message handler of `attach`. -/
def heardRest (s : ReconnectingNetwork) (network : Nat) (raw : JSString) :
    List Nat → ReconnectingNetwork × Option Frame
  | [] => (s, none)
  | handler :: rest =>
    (s.record (.message network handler raw), some (.heard network raw rest))

def hear (s : ReconnectingNetwork) (network : Nat) (raw : JSString) :
    ReconnectingNetwork × Option Frame :=
  { s with lastMessageAt := s.now }.heardRest network raw s.messageHandlers

/-- The error handler of `attach`. -/
def hearErrorRest (s : ReconnectingNetwork) (network : Nat) (scope : Scope) (error : JSString) :
    List Nat → ReconnectingNetwork × Option Frame
  | [] => if scope.isClose then s.onInnerDeath else (s, none)
  | handler :: rest =>
    (s.record (.error handler scope error), some (.heardError network scope error rest))

def hearError (s : ReconnectingNetwork) (network : Nat) (scope : Scope) (error : JSString) :
    ReconnectingNetwork × Option Frame :=
  s.hearErrorRest network scope error s.errorHandlers

/-- The callback that waits for a candidate to open. -/
def candidateOpened (s : ReconnectingNetwork) (network : Nat) : ReconnectingNetwork × Option Frame :=
  if s.phase = .connecting ∧ s.current = network then s.settleReconnected else (s, none)

/-- How a call comes back. -/
inductive Reply where
  | returns
  | throws (error : JSString)
  /-- the factory returns a network -/
  | network (readyState : SocketReadyState) (hasOnOpen : Bool)

/-- What a method does when its call comes back. A method whose handler throws
ends there. -/
def resume (s : ReconnectingNetwork) : Frame → Reply → ReconnectingNetwork × Option Frame
  | .factory, .network readyState hasOnOpen => s.adopt readyState hasOnOpen
  | .factory, .throws error => s.failAttempt error .factory
  | .factory, .returns => (s, none)
  | .subscribeMessage n, .returns =>
    ({ s with unsubscribeMessage := some n }.update n { s.networks n with error := true },
      some (.subscribeError n))
  | .subscribeMessage n, _ => (s.update n { s.networks n with message := false }, none)
  | .subscribeError n, .returns =>
    let s := { s with unsubscribeError := some n }
    match s.configured with
    | some options => (s.record (.configured n options), some (.configure n))
    | none => s.awaitOpen
  | .subscribeError n, _ => (s.update n { s.networks n with error := false }, none)
  | .configure _, .returns => s.awaitOpen
  | .configure _, _ => (s, none)
  | .watchOpen n, .returns => ({ s with unsubscribeCandidateOpen := some n }, none)
  | .watchOpen n, _ => (s.update n { s.networks n with opens := false }, none)
  | .failing scope error rest, .returns => s.failRest scope error rest
  | .givingUp rest, .returns => s.giveUpRest rest
  | .reconnected rest, .returns => s.reconnectedRest rest
  | .heardError n scope error rest, .returns => s.hearErrorRest n scope error rest
  | .heard n raw rest, .returns => s.heardRest n raw rest
  | _, _ => (s, none)

/-- `new ReconnectingNetwork(factory, options)`, for a factory whose network
takes the two subscriptions. -/
def create (options : ReconnectOptions) (readyState : SocketReadyState) (hasOnOpen : Bool)
    (now : Nat) : ReconnectingNetwork :=
  { options, created := 1, current := 0, generation := 0, phase := .connected, retryCount := 0,
    networks := fun n => ⟨readyState, hasOnOpen, n = 0, n = 0, false, []⟩,
    delayMs := options.baseMs, lastMessageAt := now, configured := none,
    unsubscribeMessage := some 0, unsubscribeError := some 0, unsubscribeCandidateOpen := none,
    reconnectTimer := none, timers := [], nextTimer := 0, watchdog := true, messageHandlers := [],
    errorHandlers := [], reconnectHandlers := [], now, log := [] }

end ReconnectingNetwork

/-! ## The environment -/

structure Config where
  net : ReconnectingNetwork
  stack : List Frame

/-- The three sets of handlers. -/
inductive Channel where
  | message
  | error
  | reconnect
  deriving DecidableEq

inductive Event where
  /-- an inner network opens, starts to close, is closed -/
  | opens (network : Nat)
  | closing (network : Nat)
  | closes (network : Nat)
  /-- an inner network has a packet for its subscribers -/
  | message (network : Nat) (raw : JSString)
  /-- a packet is on its way to those who are subscribed now, and arrives -/
  | queued (network : Nat) (raw : JSString)
  | delivered (network index : Nat)
  /-- an inner network reports an error -/
  | error (network : Nat) (scope : Scope) (error : JSString)
  | timer (id : Nat)
  | watch
  | advance (ms : Nat)
  | send (data : JSString)
  | configure (options : SocketNetworkOptions)
  | close
  | subscribe (channel : Channel) (handler : Nat)
  | unsubscribe (channel : Channel) (handler : Nat)
  | reply (r : ReconnectingNetwork.Reply)

def ReconnectingNetwork.handlers (s : ReconnectingNetwork) : Channel → List Nat
  | .message => s.messageHandlers
  | .error => s.errorHandlers
  | .reconnect => s.reconnectHandlers

def ReconnectingNetwork.setHandlers (s : ReconnectingNetwork) (handlers : List Nat) :
    Channel → ReconnectingNetwork
  | .message => { s with messageHandlers := handlers }
  | .error => { s with errorHandlers := handlers }
  | .reconnect => { s with reconnectHandlers := handlers }

/-- Only the factory returns a network, and it returns nothing else. -/
def Frame.takes : Frame → ReconnectingNetwork.Reply → Bool
  | .factory, .returns => false
  | .factory, _ => true
  | _, .network _ _ => false
  | _, _ => true

namespace Config

/-- A method ran on top of `stack`. -/
def enter (stack : List Frame) (r : ReconnectingNetwork × Option Frame) : Config :=
  ⟨r.1, r.2.toList ++ stack⟩

/-- What happens inside the network `n`, where `guard` holds of it. -/
def within (c : Config) (n : Nat) (guard : Inner → Bool)
    (act : Inner → ReconnectingNetwork × Option Frame) : Option Config :=
  if n < c.net.created ∧ guard (c.net.networks n) then some (enter c.stack (act (c.net.networks n)))
  else none

/-- One event; `none` where it cannot happen. A network that reports its close
is closed; timers run when nothing else does. -/
def step (c : Config) : Event → Option Config
  | .opens n => c.within n (fun i => i.readyState = .connecting) fun i =>
    let s := c.net.update n { i with readyState := .opened, opens := false }
    if i.opens then s.candidateOpened n else (s, none)
  | .closing n => c.within n (fun i => !i.readyState.isDead) fun i =>
    (c.net.update n { i with readyState := .closing }, none)
  | .closes n => c.within n (fun i => i.readyState ≠ .closed) fun i =>
    (c.net.update n { i with readyState := .closed }, none)
  | .message n raw => c.within n (fun i => i.message && i.readyState ≠ .closed) fun _ =>
    c.net.hear n raw
  | .queued n raw => c.within n (fun i => i.message && i.readyState = .opened) fun i =>
    (c.net.update n { i with queue := i.queue ++ [raw] }, none)
  | .delivered n index => c.within n (fun i => index < i.queue.length) fun i =>
    let s := c.net.update n { i with queue := i.queue.eraseIdx index }
    if i.readyState = .opened then s.hear n (i.queue.getD index []) else (s, none)
  | .error n scope error =>
    c.within n (fun i => i.error && (!scope.isClose || i.readyState = .closed)) fun _ =>
      c.net.hearError n scope error
  | .timer id =>
    if c.stack.isEmpty ∧ c.net.timers.any (·.1 = id) then
      some (enter [] { c.net with timers := c.net.timers.filter (·.1 ≠ id) }.attemptReconnect)
    else none
  | .watch =>
    if c.stack.isEmpty ∧ c.net.watchdog then some (enter [] c.net.watch) else none
  | .advance ms => some { c with net := { c.net with now := c.net.now + ms } }
  | .send data => some (enter c.stack (c.net.send data))
  | .configure options => some (enter c.stack (c.net.configure options))
  | .close => some { c with net := c.net.close }
  | .subscribe channel handler =>
    if handler ∈ c.net.handlers channel then some c
    else some { c with net := c.net.setHandlers (c.net.handlers channel ++ [handler]) channel }
  | .unsubscribe channel handler =>
    some { c with net := c.net.setHandlers ((c.net.handlers channel).filter (· ≠ handler)) channel }
  | .reply r =>
    match c.stack with
    | [] => none
    | f :: rest => if f.takes r then some (enter rest (c.net.resume f r)) else none

end Config

/-- A decorator that was just made. -/
def start (options : ReconnectOptions) (readyState : SocketReadyState) (hasOnOpen : Bool)
    (now : Nat) : Config :=
  ⟨.create options readyState hasOnOpen now, []⟩

/-! ## What a step can do -/

namespace Config

theorem within_eq_some {c c' : Config} {n : Nat} {guard : Inner → Bool}
    {act : Inner → ReconnectingNetwork × Option Frame} :
    c.within n guard act = some c' ↔ n < c.net.created ∧ guard (c.net.networks n) = true ∧
      enter c.stack (act (c.net.networks n)) = c' := by
  simp [within, and_assoc]

/-- What a step can do, and when. -/
inductive Does (c : Config) : Event → Config → Prop where
  | settles (n : Nat) : n < c.net.created → (c.net.networks n).readyState = .connecting →
    c.net.phase = .connecting → c.net.current = n →
    Does c (.opens n) (enter c.stack (c.net.update n
      { c.net.networks n with readyState := .opened, opens := false }).settleReconnected)
  | opens (n : Nat) : n < c.net.created → (c.net.networks n).readyState = .connecting →
    Does c (.opens n)
      ⟨c.net.update n { c.net.networks n with readyState := .opened, opens := false }, c.stack⟩
  | closing (n : Nat) : n < c.net.created → (c.net.networks n).readyState.isDead = false →
    Does c (.closing n)
      ⟨c.net.update n { c.net.networks n with readyState := .closing }, c.stack⟩
  | closes (n : Nat) : n < c.net.created → (c.net.networks n).readyState ≠ .closed →
    Does c (.closes n) ⟨c.net.update n { c.net.networks n with readyState := .closed }, c.stack⟩
  | message (n : Nat) (raw : JSString) : n < c.net.created → (c.net.networks n).message = true →
    (c.net.networks n).readyState ≠ .closed →
    Does c (.message n raw) (enter c.stack (c.net.hear n raw))
  | queued (n : Nat) (raw : JSString) : n < c.net.created → (c.net.networks n).message = true →
    (c.net.networks n).readyState = .opened →
    Does c (.queued n raw)
      ⟨c.net.update n { c.net.networks n with queue := (c.net.networks n).queue ++ [raw] }, c.stack⟩
  | delivered (n index : Nat) : n < c.net.created → (c.net.networks n).readyState = .opened →
    Does c (.delivered n index)
      (enter c.stack ((c.net.update n
        { c.net.networks n with queue := (c.net.networks n).queue.eraseIdx index }).hear n
          ((c.net.networks n).queue.getD index [])))
  | lost (n index : Nat) : n < c.net.created → (c.net.networks n).readyState ≠ .opened →
    Does c (.delivered n index)
      ⟨c.net.update n { c.net.networks n with queue := (c.net.networks n).queue.eraseIdx index },
        c.stack⟩
  | error (n : Nat) (scope : Scope) (error : JSString) : n < c.net.created →
    (c.net.networks n).error = true →
    (scope.isClose = true → (c.net.networks n).readyState = .closed) →
    Does c (.error n scope error) (enter c.stack (c.net.hearError n scope error))
  | timer (id : Nat) : c.stack = [] → c.net.timers.any (·.1 = id) = true →
    Does c (.timer id)
      (enter [] { c.net with timers := c.net.timers.filter (·.1 ≠ id) }.attemptReconnect)
  | watch : c.stack = [] → c.net.watchdog = true → Does c .watch (enter [] c.net.watch)
  | advance (ms : Nat) : Does c (.advance ms) ⟨{ c.net with now := c.net.now + ms }, c.stack⟩
  | refuses (data error : JSString) : Does c (.send data) ⟨c.net.record (.refused error), c.stack⟩
  | send (data : JSString) : c.net.phase ≠ .closed → c.net.inner.readyState = .opened →
    Does c (.send data)
      ⟨c.net.record (.wrote c.net.phase c.net.current data), .passing :: c.stack⟩
  | configure (options : SocketNetworkOptions) :
    Does c (.configure options) (enter c.stack (c.net.configure options))
  | close : Does c .close ⟨c.net.close, c.stack⟩
  | known (channel : Channel) (handler : Nat) : Does c (.subscribe channel handler) c
  | subscribe (channel : Channel) (handler : Nat) :
    Does c (.subscribe channel handler)
      ⟨c.net.setHandlers (c.net.handlers channel ++ [handler]) channel, c.stack⟩
  | unsubscribe (channel : Channel) (handler : Nat) :
    Does c (.unsubscribe channel handler)
      ⟨c.net.setHandlers ((c.net.handlers channel).filter (· ≠ handler)) channel, c.stack⟩
  | reply (r : ReconnectingNetwork.Reply) (f : Frame) (rest : List Frame) :
    c.stack = f :: rest → f.takes r = true →
    Does c (.reply r) (enter rest (c.net.resume f r))

theorem step_does {c c' : Config} {e : Event} (hstep : c.step e = some c') : Does c e c' := by
  cases e with
  | opens n =>
    rw [step, within_eq_some] at hstep
    obtain ⟨hn, guard, rfl⟩ := hstep
    have state : (c.net.networks n).readyState = .connecting := by simpa using guard
    dsimp only
    split
    · unfold ReconnectingNetwork.candidateOpened
      split
      · rename_i candidate
        exact .settles n hn state candidate.1 candidate.2
      · exact .opens n hn state
    · exact .opens n hn state
  | closing n =>
    rw [step, within_eq_some] at hstep
    obtain ⟨hn, guard, rfl⟩ := hstep
    exact .closing n hn (by simpa using guard)
  | closes n =>
    rw [step, within_eq_some] at hstep
    obtain ⟨hn, guard, rfl⟩ := hstep
    exact .closes n hn (by simpa using guard)
  | message n raw =>
    rw [step, within_eq_some] at hstep
    obtain ⟨hn, guard, rfl⟩ := hstep
    rw [Bool.and_eq_true, decide_eq_true_eq] at guard
    exact .message n raw hn guard.1 guard.2
  | queued n raw =>
    rw [step, within_eq_some] at hstep
    obtain ⟨hn, guard, rfl⟩ := hstep
    rw [Bool.and_eq_true, decide_eq_true_eq] at guard
    exact .queued n raw hn guard.1 guard.2
  | delivered n index =>
    rw [step, within_eq_some] at hstep
    obtain ⟨hn, -, rfl⟩ := hstep
    dsimp only
    split
    · rename_i opened
      exact .delivered n index hn opened
    · rename_i shut
      exact .lost n index hn shut
  | error n scope error =>
    rw [step, within_eq_some] at hstep
    obtain ⟨hn, guard, rfl⟩ := hstep
    simp only [Bool.and_eq_true, Bool.or_eq_true, Bool.not_eq_true', decide_eq_true_eq] at guard
    exact .error n scope error hn guard.1 fun hs => guard.2.resolve_left (by simp [hs])
  | timer id =>
    simp only [step, Option.ite_none_right_eq_some, Option.some.injEq] at hstep
    obtain ⟨⟨empty, fired⟩, rfl⟩ := hstep
    exact .timer id (List.isEmpty_iff.mp empty) fired
  | watch =>
    simp only [step, Option.ite_none_right_eq_some, Option.some.injEq] at hstep
    obtain ⟨⟨empty, armed⟩, rfl⟩ := hstep
    exact .watch (List.isEmpty_iff.mp empty) armed
  | advance ms =>
    cases hstep
    exact .advance ms
  | send data =>
    cases hstep
    unfold ReconnectingNetwork.send
    split
    · exact .refuses data _
    · rename_i running
      split
      · exact .refuses data _
      · rename_i opened
        exact .send data running (not_not.mp opened)
  | configure options =>
    cases hstep
    exact .configure options
  | close =>
    cases hstep
    exact .close
  | subscribe channel handler =>
    simp only [step] at hstep
    split at hstep
    · cases hstep
      exact .known channel handler
    · cases hstep
      exact .subscribe channel handler
  | unsubscribe channel handler =>
    cases hstep
    exact .unsubscribe channel handler
  | reply r =>
    obtain ⟨net, stack⟩ := c
    cases stack with
    | nil => cases hstep
    | cons f rest =>
      simp only [step, Option.ite_none_right_eq_some, Option.some.injEq] at hstep
      obtain ⟨takes, rfl⟩ := hstep
      exact .reply r f rest rfl takes

end Config

end LemonModel.Reconnecting
