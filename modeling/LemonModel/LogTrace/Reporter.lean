import LemonModel.LogTrace.Consumer
import LemonModel.Text.Bytes

/-!
# Log trace reporter

`createLogTraceReporter`: entries are numbered, cut to a budget, and handed to the sink in
batches. Whether the sink throws comes with the event.
-/

namespace LemonModel

open Text

/-- The `json` of a call: what `JSON.stringify` prints of it, if it does not throw. -/
inductive LogTraceData where
  | printed (j : Json) (wf : j.Wf)
  | omitted
  | unprintable

namespace LogTraceReporter

/-- A call of `log`. -/
structure Call where
  now : Nat
  level : LogTraceLevel
  message : JSString
  json : Option LogTraceData

/-- An entry before it is on the wire. -/
structure Entry where
  level : LogTraceLevel
  ts : Nat
  message : JSString
  json : Option LogTraceData
  seq : Nat
  truncated : Bool

/-- The members `JSON.stringify` prints. -/
def Entry.members (e : Entry) : List (JSString × Json) :=
  (lit "level", .str e.level.name) :: (lit "ts", .ofNat e.ts) :: (lit "message", .str e.message) ::
    (lit "seq", .ofNat e.seq) ::
      ((match e.json with
        | some (.printed j _) => [(lit "json", j)]
        | _ => []) ++
      if e.truncated then [(lit "truncated", .bool true)] else [])

def Entry.document (e : Entry) : Json := .obj e.members

/-- Does `JSON.stringify(entry)` return. -/
def Entry.printable (e : Entry) : Bool :=
  match e.json with
  | some .unprintable => false
  | _ => true

/-- `byteLength(JSON.stringify(entry))` -/
def Entry.size (e : Entry) : Nat := byteLength e.document.text

/-- A message for the sink; `mid` is the number in it. -/
structure Message where
  type : JSString
  entries : List Entry
  source : JSString
  mid : Nat

def Message.document (m : Message) : Json :=
  .obj [(lit "type", .str m.type),
    (lit "data", .obj [(lit "entries", .arr (m.entries.map Entry.document)),
      (lit "source", .str m.source)]),
    (lit "mid", .str (unit 'l' :: natText m.mid))]

/-- `JSON.stringify(message)` -/
def Message.raw (m : Message) : JSString := m.document.text

/-- `byteLength(JSON.stringify(entries))` -/
def batchBytes (entries : List Entry) : Nat :=
  byteLength (Json.arr (entries.map Entry.document)).text

/-- What `onError` is told. -/
inductive Fault where
  | oversize (seq : Nat)
  | sink (mid : Nat)
  deriving DecidableEq

end LogTraceReporter

open LogTraceReporter in
/-- `sent` and `errors` are a record: the messages the sink was called with, and what
`onError` was called with, the oldest first. -/
structure LogTraceReporter where
  type : JSString
  source : JSString
  minLevel : LogTraceLevel
  flushCount : ℚ
  flushIntervalMs : ℚ
  maxBatchBytes : ℚ
  buffer : List Entry
  bufferBytes : Nat
  seqNo : Nat
  midNo : Nat
  timer : Bool
  sentOnce : Bool
  closed : Bool
  sent : List Message
  errors : List (Fault × List Entry)

structure LogTraceReporterOptions where
  type : Option JSString
  minLevel : Option LogTraceLevel
  flushCount : Option ℚ
  flushIntervalMs : Option ℚ
  maxBatchBytes : Option ℚ
  maxPacketBytes : Option ℚ

def LogTraceReporterOptions.default : LogTraceReporterOptions := ⟨none, none, none, none, none, none⟩

namespace LogTraceReporter

/-- `createLogTraceReporter`, with a source that is given or drawn. -/
def create (options : LogTraceReporterOptions) (source : JSString) : LogTraceReporter where
  type := options.type.getD (lit "log:trace")
  source := source
  minLevel := options.minLevel.getD .debug
  flushCount := options.flushCount.getD 20
  flushIntervalMs := options.flushIntervalMs.getD 250
  maxBatchBytes := options.maxBatchBytes.getD ⌊options.maxPacketBytes.getD (64 * 1024) * 3 / 4⌋
  buffer := []
  bufferBytes := 0
  seqNo := 0
  midNo := 0
  timer := false
  sentOnce := false
  closed := false
  sent := []
  errors := []

/-! ## Truncation -/

/-- The loop of `truncate`, with the bytes it counts. -/
def cut (maxBatchBytes : ℚ) : Nat → Entry × Nat → Entry × Nat
  | 0, p => p
  | fuel + 1, (e, bytes) =>
    if (bytes : ℚ) ≤ maxBatchBytes ∨ e.message = [] then (e, bytes)
    else
      let length := max 0 (e.message.length - (bytes - maxBatchBytes))
      let e := { e with message := e.message.take ⌊length⌋.toNat }
      cut maxBatchBytes fuel (e, e.size)

/-- What is left of an entry of this size, and the bytes that are counted for it. They are
counted again only once something was dropped. -/
def truncate (maxBatchBytes : ℚ) (e : Entry) (bytes : Nat) : Entry × Nat :=
  let e := { e with truncated := true }
  let dropped := { e with json := none }
  cut maxBatchBytes e.message.length
    (if e.json.isSome then (dropped, dropped.size) else (e, bytes))

def Call.entry (call : Call) (seq : Nat) : Entry :=
  ⟨call.level, call.now, call.message, call.json, seq, false⟩

/-- The entry that is buffered for a call, and the bytes that are counted for it. -/
def Call.record (maxBatchBytes : ℚ) (call : Call) (seq : Nat) : Entry × Nat :=
  let e := call.entry seq
  if maxBatchBytes < (e.size : ℚ) then truncate maxBatchBytes e e.size else (e, e.size)

/-! ## The reporter -/

variable (throws : Nat → Bool) (r : LogTraceReporter)

def flush : LogTraceReporter :=
  let r := { r with timer := false }
  if r.buffer.isEmpty then r
  else
    let mid := r.midNo + 1
    { r with
      buffer := []
      bufferBytes := 0
      sentOnce := true
      midNo := mid
      sent := r.sent ++ [⟨r.type, r.buffer, r.source, mid⟩]
      errors := if throws mid then r.errors ++ [(.sink mid, r.buffer)] else r.errors }

/-- Would the entry exceed the budget of the batch. -/
def overruns (bytes : Nat) : Bool :=
  !r.buffer.isEmpty && decide (r.maxBatchBytes < r.bufferBytes + bytes + 1)

/-- `this.buffer.push(entry)` -/
def push (entry : Entry) (bytes : Nat) : LogTraceReporter :=
  { r with buffer := r.buffer ++ [entry], bufferBytes := r.bufferBytes + bytes + 1 }

/-- The end of `log`, once the entry is buffered. -/
def trigger (level : LogTraceLevel) : LogTraceReporter :=
  if level = .error ∨ r.flushCount ≤ r.buffer.length then r.flush throws
  else if r.flushIntervalMs ≤ 0 then r
  else if r.sentOnce then { r with timer := true }
  else r.flush throws

/-- `log` past the gate, with the entry as it is buffered. -/
def add (entry : Entry) (bytes : Nat) : LogTraceReporter :=
  let r := if r.overruns bytes then r.flush throws else r
  (r.push entry bytes).trigger throws entry.level

/-- Does a call pass the gate. -/
def passes (call : Call) : Bool := !r.closed && decide (r.minLevel.weight ≤ call.level.weight)

/-- `log`, and whether an exception comes out of it. -/
def log (call : Call) : LogTraceReporter × Bool :=
  if !r.passes call then (r, false)
  else
    let r := { r with seqNo := r.seqNo + 1 }
    let entry := call.entry r.seqNo
    if !entry.printable then (r, true)
    else
      let recorded := call.record r.maxBatchBytes r.seqNo
      let r :=
        if r.maxBatchBytes < (entry.size : ℚ) then
          { r with errors := r.errors ++ [(.oversize r.seqNo, [recorded.1])] }
        else r
      (r.add throws recorded.1 recorded.2, false)

def close : LogTraceReporter := { r.flush throws with closed := true }

/-- The promise the sink returned for a message rejects. -/
def rejected (m : Message) : LogTraceReporter :=
  { r with errors := r.errors ++ [(.sink m.mid, m.entries)] }

/-- A call, the timer, or a promise of the sink that rejects. -/
inductive Event where
  | log (call : Call)
  | flush
  | close
  | timer
  | reject (i : Nat)

/-- What an event does, and whether an exception comes out of it. `none` where it cannot
happen. -/
def handle : Event → Option (LogTraceReporter × Bool)
  | .log call => some (r.log throws call)
  | .flush => some (r.flush throws, false)
  | .close => some (r.close throws, false)
  | .timer => if r.timer then some (r.flush throws, false) else none
  | .reject i => (r.sent[i]?).map fun m => (r.rejected m, false)

/-- An event, with the messages the sink throws on. -/
def step (e : Event × (Nat → Bool)) : Option LogTraceReporter :=
  (r.handle e.2 e.1).map Prod.fst

variable {r throws} {r' : LogTraceReporter}

theorem step_timer (h : r.step (.timer, throws) = some r') : r.flush throws = r' := by
  obtain ⟨p, handled, rfl⟩ := Option.map_eq_some_iff.mp h
  obtain ⟨-, done⟩ := Option.ite_none_right_eq_some.mp handled
  exact congrArg Prod.fst (Option.some.inj done)

theorem step_reject {i : Nat} (h : r.step (.reject i, throws) = some r') :
    ∃ m ∈ r.sent, r.rejected m = r' := by
  obtain ⟨p, handled, rfl⟩ := Option.map_eq_some_iff.mp h
  obtain ⟨m, found, rfl⟩ := Option.map_eq_some_iff.mp handled
  exact ⟨m, List.mem_of_getElem? found, rfl⟩

end LogTraceReporter

end LemonModel
