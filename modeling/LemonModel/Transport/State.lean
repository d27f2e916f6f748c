import LemonModel.Transport.Receive

/-!
# One transport

The state of a `JSONTransport` and its methods. A method hands control away
when it calls `network.send` or a message listener; it then returns the `Frame`
that says what is left to do, and `LemonModel.Transport.Machine` decides what
happens in between. Error listeners and the logger only record.
-/

namespace LemonModel

open Text

/-- The reliable options that decide anything. A timer may fire at any moment
while it is armed, so its delay is left out; a limit below zero acts as zero. -/
structure ReliableOptions where
  maxAttempts : Nat
  deadlineMs : Nat
  settledTtlMs : Nat
  settledMaxEntries : Nat
  deriving DecidableEq

/-- `{ reliable: true }`. -/
def ReliableOptions.default : ReliableOptions := ⟨6, 60000, 5 * 60 * 1000, 10000⟩

def DEFAULT_PARTIAL_TTL_MS : Nat := 5 * 60 * 1000

inductive Outcome where
  | ok
  | fail
  deriving DecidableEq

structure SettledEntry where
  outcome : Outcome
  expiresAt : Nat
  deriving DecidableEq

/-- A reliable send that is still in flight. -/
structure PendingSend where
  split : JSONSplitResult
  attempts : Nat
  startedAt : Nat
  resendTimer : Nat

/-- What a transport did, for the record. -/
inductive Effect where
  /-- a reliable send was registered -/
  | started (tid : JSString) (data : JSValue)
  /-- `network.send` was called for a send -/
  | sent (packet : JSONTransportPacket)
  /-- `network.send` was called in `sendAck` or `fireNack` -/
  | answered (packet : JSONTransportPacket)
  /-- a message was rebuilt and is about to go to these listeners -/
  | assembled (tid : JSString) (data : Json) (listeners : List Nat)
  | called (tid : JSString) (data : Json) (listener : Nat)
  | returned (tid : JSString) (data : Json) (listener : Nat)
  | threw (tid : JSString) (listener : Nat)
  /-- the error listeners were called; `tid` is the message it is about -/
  | error (tid : Option JSString) (report : Report)
  /-- `settleSend` ran -/
  | settled (tid : JSString) (outcome : Outcome)
  | resolved (tid : JSString)
  | rejected (tid : JSString)
  /-- `settledReceived` lost this entry to its TTL or its cap -/
  | forgot (tid : JSString)

/-- A method that has called out, and what it has left to do. -/
inductive Frame where
  /-- in the loop of `attemptSend` -/
  | attempt (tid : JSString) (pending : PendingSend) (rest : List JSONTransportPacket)
  /-- in `failSend`, sending the `json:error` -/
  | fail (tid : JSString) (reason : JSString)
  /-- in `handleNack` -/
  | resend (rest : List JSONTransportPacket)
  /-- in `sendAck` or `fireNack` -/
  | control
  /-- in the listener loop of `acceptPacket` -/
  | emit (tid : JSString) (data : Json) (listener : Nat) (rest : List Nat)
  /-- in the `split.send` of a transport that is not reliable -/
  | plain (rest : List JSONTransportPacket)

/-- A transport. `log` has the newest effect first. -/
structure Transport where
  options : SplitOptions
  partialTtlMs : Nat
  reliable : Option ReliableOptions
  listeners : List Nat
  states : Dict JSString JSONReceiveState
  pendingSend : Dict JSString PendingSend
  settledSend : Dict JSString SettledEntry
  settledReceived : Dict JSString SettledEntry
  nackTimers : List JSString
  resendTimers : Dict Nat JSString
  nextTimer : Nat
  attached : Bool
  isOpen : Bool
  now : Nat
  log : List Effect

namespace Transport

/-- `new JSONTransport(network, options)`. -/
def create (options : SplitOptions) (partialTtlMs : Nat) (reliable : Option ReliableOptions)
    (now : Nat) : Transport :=
  ⟨options, partialTtlMs, reliable, [], .empty, .empty, .empty, .empty, [], .empty, 0, true, true,
    now, []⟩

def pendingCount (t : Transport) : Nat := t.states.size

def record (t : Transport) (effect : Effect) : Transport := { t with log := effect :: t.log }

def emitError (t : Transport) (tid : Option JSString) (r : Report) : Transport :=
  t.record (.error tid r)

/-! ## Settled memory -/

def sweepSettledMapTtl (map : Dict JSString SettledEntry) (now : Nat) :
    Dict JSString SettledEntry :=
  map.filter fun _ entry => decide (now < entry.expiresAt)

/-- Only the oldest entry is looked at for its TTL. -/
def pickSettledEvictionVictim (map : Dict JSString SettledEntry) (now : Nat) : Option JSString :=
  match map.entries with
  | [] => none
  | (oldest, entry) :: _ =>
    if entry.expiresAt ≤ now then some oldest
    else
      match map.entries.find? (·.2.outcome = .fail) with
      | some (tid, _) => some tid
      | none => some oldest

def evictSettled (maxEntries now : Nat) :
    Nat → Dict JSString SettledEntry → Dict JSString SettledEntry
  | 0, map => map
  | fuel + 1, map =>
    if map.size ≤ maxEntries then map
    else
      match pickSettledEvictionVictim map now with
      | none => map
      | some victim => evictSettled maxEntries now fuel (map.delete victim)

/-- Every round deletes an entry, so the map's size bounds the rounds. -/
def sweepSettledMapSize (map : Dict JSString SettledEntry) (maxEntries now : Nat) :
    Dict JSString SettledEntry :=
  evictSettled maxEntries now map.size map

/-- `settledReceived` becomes `map`, and what is gone from it is recorded. -/
def forget (t : Transport) (map : Dict JSString SettledEntry) : Transport :=
  { t with
    settledReceived := map
    log := (t.settledReceived.keys.filter fun tid => !map.has tid).map .forgot ++ t.log }

def settleReceived (t : Transport) (o : ReliableOptions) (tid : JSString) (outcome : Outcome) :
    Transport :=
  let map := t.settledReceived.set tid ⟨outcome, t.now + o.settledTtlMs⟩
  forget { t with settledReceived := map } (sweepSettledMapSize map o.settledMaxEntries t.now)

def settleSend (t : Transport) (o : ReliableOptions) (tid : JSString) (outcome : Outcome) :
    Transport :=
  let map := t.settledSend.set tid ⟨outcome, t.now + o.settledTtlMs⟩
  { t with
    settledSend := sweepSettledMapSize map o.settledMaxEntries t.now
    log := .settled tid outcome :: t.log }

def sweepSettledMaps (t : Transport) : Transport :=
  forget { t with settledSend := sweepSettledMapTtl t.settledSend t.now }
    (sweepSettledMapTtl t.settledReceived t.now)

/-! ## Partial states -/

def setState (t : Transport) (tid : JSString) (state : JSONReceiveState) : Transport :=
  { t with states := t.states.set tid state }

def deleteState (t : Transport) (tid : JSString) : Transport :=
  { t with states := t.states.delete tid }

def clearNackTimer (t : Transport) (tid : JSString) : Transport :=
  { t with nackTimers := t.nackTimers.filter (· ≠ tid) }

def scheduleNack (t : Transport) (tid : JSString) : Transport :=
  if t.reliable.isSome then { t with nackTimers := tid :: t.nackTimers.filter (· ≠ tid) } else t

/-- The partial states `cleanup` is about to remove; it returns their number. -/
def expiredPartials (t : Transport) : List JSString :=
  if t.partialTtlMs = 0 then []
  else (t.states.entries.filter fun e => t.partialTtlMs < t.now - e.2.updatedAt).map Prod.fst

def expiredReport (tid : JSString) : Report :=
  report .partialExpired (lit "@json[" ++ tid ++ lit "] partial message expired")

/-- The body of the loop in `cleanup`. -/
def expirePartial (t : Transport) (tid : JSString) : Transport :=
  match t.reliable with
  | none => (t.deleteState tid).emitError (some tid) (expiredReport tid)
  | some o =>
    (((t.deleteState tid).clearNackTimer tid).settleReceived o tid .fail).emitError (some tid)
      (expiredReport tid)

/-- `if (this.reliable) this.sweepSettledMaps(now)`. -/
def sweep (t : Transport) : Transport :=
  if t.reliable.isSome then t.sweepSettledMaps else t

def cleanup (t : Transport) : Transport := t.expiredPartials.foldl expirePartial t.sweep

/-- The state `getState` returns, once it has cleaned up. -/
def openState (t : Transport) (tid : JSString) : JSONReceiveState :=
  { (t.states.get? tid).getD (.fresh tid t.now) with updatedAt := t.now }

def getState (t : Transport) (tid : JSString) : Transport × JSONReceiveState :=
  let t := t.cleanup
  (t.setState tid (t.openState tid), t.openState tid)

/-! ## Sending -/

/-- `network.send(JSON.stringify(packet))` for a send. -/
def networkSend (t : Transport) (packet : JSONTransportPacket) : Transport :=
  t.record (.sent packet)

def failSend (t : Transport) (tid : JSString) (pending : PendingSend) (reason : JSString) :
    Transport × Option Frame :=
  let t := { t with
    resendTimers := t.resendTimers.delete pending.resendTimer
    pendingSend := t.pendingSend.delete tid }
  (t.networkSend (.error tid reason), some (.fail tid reason))

/-- `failSend` once its `json:error` is out. -/
def failRest (t : Transport) (o : ReliableOptions) (tid reason : JSString) : Transport :=
  ((t.settleSend o tid .fail).emitError (some tid)
    (report .failed (lit "@json[" ++ tid ++ lit "] " ++ reason))).record (.rejected tid)

/-- The end of `attemptSend`, after its loop. -/
def attemptEnd (t : Transport) (o : ReliableOptions) (tid : JSString) (pending : PendingSend) :
    Transport × Option Frame :=
  if o.maxAttempts ≤ pending.attempts then t.failSend tid pending (lit "max attempts exceeded")
  else (t, none)

/-- The loop of `attemptSend` over the packets left. -/
def attemptRest (t : Transport) (o : ReliableOptions) (tid : JSString) (pending : PendingSend) :
    List JSONTransportPacket → Transport × Option Frame
  | [] => t.attemptEnd o tid pending
  | packet :: rest => (t.networkSend packet, some (.attempt tid pending rest))

def attemptSend (t : Transport) (o : ReliableOptions) (tid : JSString) (pending : PendingSend) :
    Transport × Option Frame :=
  if o.deadlineMs ≤ t.now - pending.startedAt then
    t.failSend tid pending (lit "deadline exceeded")
  else if !t.isOpen then (t, none)
  else
    let pending := { pending with attempts := pending.attempts + 1 }
    let t := { t with pendingSend := t.pendingSend.set tid pending }
    t.attemptRest o tid pending pending.split.packets

/-- The `pending` that `sendReliable` makes. -/
def newPending (t : Transport) (split : JSONSplitResult) : PendingSend :=
  ⟨split, 0, t.now, t.nextTimer⟩

/-- `sendReliable` up to its first attempt. -/
def register (t : Transport) (data : JSValue) (split : JSONSplitResult) : Transport :=
  { t with
    resendTimers := t.resendTimers.set t.nextTimer split.tid
    nextTimer := t.nextTimer + 1
    pendingSend := t.pendingSend.set split.tid (t.newPending split)
    log := .started split.tid data :: t.log }

/-- `sendReliable` once the value is split. -/
def sendReliable (t : Transport) (o : ReliableOptions) (data : JSValue) (split : JSONSplitResult) :
    Transport × Option Frame :=
  (t.register data split).attemptSend o split.tid (t.newPending split)

/-- The loop of `split.send`. -/
def plainRest (t : Transport) : List JSONTransportPacket → Transport × Option Frame
  | [] => (t, none)
  | packet :: rest => (t.networkSend packet, some (.plain rest))

/-- `send`. Where `splitJSON` throws, nothing has happened yet. -/
def send (t : Transport) (data : JSValue) (ids : Ids) : Transport × Option Frame :=
  match splitJSON data t.options ids with
  | none => (t, none)
  | some split =>
    match t.reliable with
    | some o => t.sendReliable o data split
    | none => t.plainRest split.packets

/-- `resendTick` of the interval timer `timer`. -/
def resendTick (t : Transport) (timer : Nat) : Transport × Option Frame :=
  match t.reliable, t.resendTimers.get? timer with
  | some o, some tid =>
    match t.pendingSend.get? tid with
    | some pending => t.attemptSend o tid pending
    | none => (t, none)
  | _, _ => (t, none)

def handleAck (t : Transport) (o : ReliableOptions) (tid : JSString) : Transport :=
  match t.pendingSend.get? tid with
  | none => t
  | some pending =>
    ({ t with
      resendTimers := t.resendTimers.delete pending.resendTimer
      pendingSend := t.pendingSend.delete tid }.settleSend o tid .ok).record (.resolved tid)

/-- The packets `handleNack` sends for a nack. -/
def nackAnswer (pending : PendingSend) (nack : JSONNackPacket) : List JSONTransportPacket :=
  (if nack.manifest = some true then [.manifest pending.split.manifest] else []) ++
    ((nack.chunks.getD []).flatMap fun entry => entry.missing.filterMap fun index =>
      (pending.split.chunks.find? fun item => item.cid = entry.cid ∧ item.index = index).map .chunk) ++
    (if nack.complete = some true then [.complete pending.split.tid] else [])

/-- The loop of `handleNack` over the packets left. -/
def resendRest (t : Transport) : List JSONTransportPacket → Transport × Option Frame
  | [] => (t, none)
  | packet :: rest => (t.networkSend packet, some (.resend rest))

def handleNack (t : Transport) (nack : JSONNackPacket) : Transport × Option Frame :=
  match t.pendingSend.get? nack.tid with
  | none => (t, none)
  | some pending => t.resendRest (nackAnswer pending nack)

/-! ## Receiving -/

def sendAck (t : Transport) (tid : JSString) : Transport × Option Frame :=
  (t.record (.answered (.ack tid)), some .control)

/-- The end of `acceptPacket`, after the listener loop. -/
def emitEnd (t : Transport) (tid : JSString) : Transport × Option Frame :=
  match t.reliable with
  | some o => ((t.clearNackTimer tid).settleReceived o tid .ok).sendAck tid
  | none => (t, none)

/-- The listener loop of `acceptPacket` over the listeners left. -/
def emitRest (t : Transport) (tid : JSString) (data : Json) : List Nat → Transport × Option Frame
  | [] => t.emitEnd tid
  | listener :: rest => (t.record (.called tid data listener), some (.emit tid data listener rest))

def emitErrors (t : Transport) (tid : JSString) (reports : List Report) : Transport :=
  reports.foldl (fun t r => t.emitError (some tid) r) t

/-- `acceptPacket` once a message is assembled. -/
def emitMessage (t : Transport) (tid : JSString) (data : Json) : Transport × Option Frame :=
  ((t.deleteState tid).record (.assembled tid data t.listeners)).emitRest tid data t.listeners

/-- `acceptPacket` once `absorb` is through. -/
def acceptRest (t : Transport) (tid : JSString) (r : JSONReceiveState × List Report × Option Json) :
    Transport × Option Frame :=
  let t := (t.setState tid r.1).emitErrors tid r.2.1
  match r.2.2 with
  | none => (t, none)
  | some data => t.emitMessage tid data

/-- The body of `acceptPacket` from `getState` on. -/
def acceptPart (t : Transport) (packet : JSONTransportPacket) : Transport × Option Frame :=
  let (t, state) := t.getState packet.tid
  (t.scheduleNack packet.tid).acceptRest packet.tid (absorb t.reliable.isSome t.now state packet)

/-- The `json:error` case of `acceptPacket`. -/
def acceptError (t : Transport) (tid error : JSString) : Transport :=
  let t := t.emitError (some tid) ⟨.error, error⟩
  match t.reliable with
  | none => t
  | some o => ((t.deleteState tid).clearNackTimer tid).settleReceived o tid .fail

/-- `acceptPacket`; `receive` lets acks and nacks through in reliable mode
only. -/
def acceptPacket (t : Transport) (packet : JSONTransportPacket) : Transport × Option Frame :=
  match t.reliable, packet with
  | some o, .ack tid => (t.handleAck o tid, none)
  | some _, .nack nack => t.handleNack nack
  | _, .error tid error => (t.acceptError tid error, none)
  | some _, packet =>
    match t.settledReceived.get? packet.tid with
    | some entry => if entry.outcome = .ok then t.sendAck packet.tid else (t, none)
    | none => t.acceptPart packet
  | none, packet => t.acceptPart packet

def isControl : JSONTransportPacket → Bool
  | .ack _ => true
  | .nack _ => true
  | _ => false

def receive (t : Transport) (packetString : JSString) : Transport × Option Frame :=
  match parse packetString with
  | none => (t.emitError none ⟨.parse, []⟩, none)
  | some packet =>
    match isJSONTransportPacket packet with
    | none => (t.emitError none (report .packet (lit "@packet is invalid")), none)
    | some packet =>
      if t.reliable.isNone ∧ isControl packet then
        (t.emitError (some packet.tid)
          (report .mismatch (lit "@packet[" ++ packet.type ++ lit "] requires reliable mode")), none)
      else t.acceptPacket packet

/-- The missing indices of every ref. -/
def missingChunks (state : JSONReceiveState) (refs : List JSONChunkRef) : List JSONNackEntry :=
  refs.filterMap fun ref =>
    let missing := (List.range ref.chunks).filter fun index => (state.chunk? ref.cid index).isNone
    if missing = [] then none else some ⟨ref.cid, missing⟩

def buildNackPacket (state : JSONReceiveState) : JSONNackPacket :=
  match state.manifest with
  | none => ⟨state.tid, some true, none, none⟩
  | some manifest =>
    let entries := missingChunks state manifest.refs
    ⟨state.tid, none, if entries = [] then none else some entries,
      if state.complete then none else some true⟩

def fireNack (t : Transport) (tid : JSString) : Transport × Option Frame :=
  let t := t.clearNackTimer tid
  match t.states.get? tid with
  | none => (t, none)
  | some state =>
    if state.emitted then (t, none)
    else (t.record (.answered (.nack (buildNackPacket state))), some .control)

/-! ## The rest of the surface -/

def onMessage (t : Transport) (listener : Nat) : Transport :=
  if listener ∈ t.listeners then t else { t with listeners := t.listeners ++ [listener] }

def unsubscribe (t : Transport) (listener : Nat) : Transport :=
  { t with listeners := t.listeners.filter (· ≠ listener) }

/-- The body of the loop in `detachReliable`. -/
def detachSend (o : ReliableOptions) (t : Transport) (e : JSString × PendingSend) : Transport :=
  ({ t with
    resendTimers := t.resendTimers.delete e.2.resendTimer
    pendingSend := t.pendingSend.delete e.1 }.settleSend o e.1 .fail).record (.rejected e.1)

def detachReliable (t : Transport) (o : ReliableOptions) : Transport :=
  { t.pendingSend.entries.foldl (detachSend o) t with nackTimers := [] }

def detach (t : Transport) : Transport :=
  let t :=
    match t.reliable with
    | some o => t.detachReliable o
    | none => t
  { t with attached := false, states := .empty, listeners := [] }

/-- What a method does when its call comes back, by returning (`ok`) or by
throwing. -/
def resume (t : Transport) (ok : Bool) : Frame → Transport × Option Frame
  | .attempt tid pending rest =>
    match t.reliable with
    | none => (t, none)
    | some o => if ok then t.attemptRest o tid pending rest else t.attemptEnd o tid pending
  | .fail tid reason =>
    match t.reliable with
    | none => (t, none)
    | some o => (t.failRest o tid reason, none)
  | .resend rest => if ok then t.resendRest rest else (t, none)
  | .control => (t, none)
  | .emit tid data listener rest =>
    if ok then (t.record (.returned tid data listener)).emitRest tid data rest
    -- the exception reaches the catch in `receive`
    else ((t.record (.threw tid listener)).emitError (some tid) ⟨.packet, []⟩, none)
  | .plain rest =>
    if ok then t.plainRest rest else (t.emitError none ⟨.send, []⟩, none)

end Transport

end LemonModel
