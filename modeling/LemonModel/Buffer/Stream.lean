import LemonModel.Base.Run
import LemonModel.Text.Utf16

/-!
# The stream buffer

`GenAIStreamBuffer`: its queue, its timers, and the calls that wait for the consumer.
A call runs up to an `await` and is then a task: what it does when the promise it
waits for is settled. Tasks go on in any order, and a promise of the consumer may be
fulfilled or rejected at any time.
-/

namespace LemonModel

open Text

inductive GenAIStreamFlushStrategy where
  | size
  | time
  | bytes
  | hybrid
  deriving DecidableEq

structure GenAIStreamBufferOptions where
  useBuffer : Bool
  flushStrategy : GenAIStreamFlushStrategy
  bufferSize : ℚ
  bufferBytes : ℚ
  emitProgress : Bool
  progressIntervalMs : ℚ
  timeoutMs : ℚ

/-- `DEFAULT_OPTIONS`. -/
def GenAIStreamBufferOptions.default : GenAIStreamBufferOptions :=
  ⟨true, .hybrid, 10, 16 * 1024, false, 0, 0⟩

structure GenAIStreamChunkEvent where
  index : Option ℤ
  data : JSString
  chars : Option ℚ
  bytes : Option ℚ
  tokens : Option ℚ
  deriving DecidableEq

structure GenAIStreamFlushEvent where
  index : ℤ
  data : JSString
  chunks : List GenAIStreamChunkEvent
  count : Nat
  chars : ℚ
  bytes : ℚ
  deriving DecidableEq

/-- What a caller pushes; `other` is an event of type `start`, `flush` or `progress`. -/
inductive GenAIStreamEvent where
  | chunk (event : GenAIStreamChunkEvent)
  | eof (index : Option ℤ)
  | error (index : Option ℤ)
  | other (index : Option ℤ)

/-- What the consumer is called with. `asked` is how many chunks had been accepted
when `close` was called, and `pushed` an event that a caller pushed through. -/
inductive Emission where
  | start (index : ℤ)
  | flush (event : GenAIStreamFlushEvent)
  | progress (index : ℤ)
  | eof (index : ℤ) (asked : Nat)
  | error (index : ℤ)
  | pushed (index : ℤ)
  deriving DecidableEq

/-- What a call does when its promise is settled. A flush has the number of chunks
that had been accepted when the `close` was called that waits for it, if one does. -/
inductive Continuation where
  | stop
  | flushed (asked : Option Nat)
  | enqueued
  | interval
  | closing (asked : Nat)
  deriving DecidableEq

/-- A suspended call; it waits for the consumer, or its promise is fulfilled. -/
structure Task where
  consuming : Bool
  continuation : Continuation
  deriving DecidableEq

/-- A buffer. A timer is `some true` while it runs; the handle of one that fired stays
until it is cleared. `emitted` is in order, and `accepted` has the chunks that were
put into the queue. -/
structure GenAIStreamBuffer where
  options : GenAIStreamBufferOptions
  queue : List GenAIStreamChunkEvent
  timer : Option Bool
  progressTimer : Bool
  timeoutTimer : Option Bool
  processing : Bool
  closed : Bool
  index : ℤ
  loadedChars : ℚ
  loadedBytes : ℚ
  loadedTokens : ℚ
  tasks : List Task
  emitted : List Emission
  accepted : List GenAIStreamChunkEvent

namespace GenAIStreamChunkEvent

/-- `chunk.chars ?? chunk.data.length`. -/
def size (c : GenAIStreamChunkEvent) : ℚ := c.chars.getD c.data.length

/-- `chunk.bytes ?? byteLength(chunk.data)`. -/
def byteSize (c : GenAIStreamChunkEvent) : ℚ := c.bytes.getD (byteLength c.data)

end GenAIStreamChunkEvent

namespace GenAIStreamBuffer

def create (options : GenAIStreamBufferOptions) : GenAIStreamBuffer :=
  { options := options, queue := [], timer := none, progressTimer := false, timeoutTimer := none
    processing := false, closed := false, index := 0, loadedChars := 0, loadedBytes := 0
    loadedTokens := 0, tasks := [], emitted := [], accepted := [] }

/-! ## Timers -/

def clearTimer (s : GenAIStreamBuffer) : GenAIStreamBuffer := { s with timer := none }

def clearProgressTimer (s : GenAIStreamBuffer) : GenAIStreamBuffer := { s with progressTimer := false }

def clearTimeout (s : GenAIStreamBuffer) : GenAIStreamBuffer := { s with timeoutTimer := none }

def scheduleFlush (s : GenAIStreamBuffer) : GenAIStreamBuffer :=
  if s.timer.isSome then s else { s with timer := some true }

def scheduleProgress (s : GenAIStreamBuffer) : GenAIStreamBuffer :=
  if s.options.progressIntervalMs = 0 ∨ s.progressTimer ∨ s.queue = [] then s
  else { s with progressTimer := true }

def scheduleTimeout (s : GenAIStreamBuffer) : GenAIStreamBuffer :=
  if s.options.timeoutMs = 0 ∨ s.timeoutTimer.isSome then s
  else { s with timeoutTimer := some true }

/-! ## Calls of the consumer -/

/-- `await this.consumer(event)`, with what follows it. -/
def consume (s : GenAIStreamBuffer) (event : Emission) (k : Continuation) : GenAIStreamBuffer :=
  { s with emitted := s.emitted ++ [event], tasks := s.tasks ++ [⟨true, k⟩] }

/-- `await` of a promise that is fulfilled. -/
def proceed (s : GenAIStreamBuffer) (k : Continuation) : GenAIStreamBuffer :=
  { s with tasks := s.tasks ++ [⟨false, k⟩] }

/-- `this.index++` -/
def count (s : GenAIStreamBuffer) : GenAIStreamBuffer := { s with index := s.index + 1 }

def shouldFlush (s : GenAIStreamBuffer) : Bool :=
  let chunks : ℚ := s.queue.length
  let bytes : ℚ := (s.queue.map (·.byteSize)).sum
  match s.options.flushStrategy with
  | .size => s.options.bufferSize ≤ chunks
  | .bytes => s.options.bufferBytes ≤ bytes
  | .time => false
  | .hybrid => s.options.bufferSize ≤ chunks ∨ s.options.bufferBytes ≤ bytes

/-- The event `flush` makes of the queue. -/
def flushEvent (s : GenAIStreamBuffer) : GenAIStreamFlushEvent :=
  { index := s.index
    data := (s.queue.map (·.data)).flatten
    chunks := s.queue
    count := s.queue.length
    chars := (s.queue.map (·.size)).sum
    bytes := (s.queue.map (·.byteSize)).sum }

/-- A call that awaited a flush goes on, if one did. -/
def afterFlush (s : GenAIStreamBuffer) : Option Nat → GenAIStreamBuffer
  | some asked => s.proceed (.closing asked)
  | none => s

/-- Whether `flush` takes the queue. -/
def flushes (s : GenAIStreamBuffer) : Bool := !s.processing && !s.queue.isEmpty

/-- `flush` up to its call of the consumer. -/
def flush (s : GenAIStreamBuffer) (asked : Option Nat) : GenAIStreamBuffer :=
  if s.flushes then
    ({ s with processing := true, queue := [] }.clearTimer.clearProgressTimer.count).consume
      (.flush s.flushEvent) (.flushed asked)
  else s.afterFlush asked

def needsFlush (s : GenAIStreamBuffer) : Bool := !s.options.useBuffer || s.shouldFlush

/-- `flush` after its call of the consumer. -/
def flushed (s : GenAIStreamBuffer) (asked : Option Nat) (ok : Bool) : GenAIStreamBuffer :=
  let s := { s with processing := false }
  if ok then
    if s.queue = [] then s.afterFlush asked
    else if s.needsFlush then s.flush asked
    else s.scheduleFlush.scheduleProgress.afterFlush asked
  else s

/-- The end of `enqueue`. -/
def enqueued (s : GenAIStreamBuffer) : GenAIStreamBuffer :=
  if s.needsFlush then s.flush none else s.scheduleFlush.scheduleProgress

def emitProgress (s : GenAIStreamBuffer) (k : Continuation) : GenAIStreamBuffer :=
  if s.closed then s.proceed k else s.count.consume (.progress s.index) k

def reportError (s : GenAIStreamBuffer) : GenAIStreamBuffer :=
  if s.closed then s
  else
    ({ s with closed := true }.clearTimer.clearProgressTimer.clearTimeout.count).consume
      (.error s.index) .stop

/-- `close` up to the end of its flush. -/
def close (s : GenAIStreamBuffer) : GenAIStreamBuffer :=
  if s.closed then s else s.flush (some s.accepted.length)

/-- `close` after its flush. -/
def closing (s : GenAIStreamBuffer) (asked : Nat) : GenAIStreamBuffer :=
  ({ s with closed := true }.clearTimer.clearProgressTimer.clearTimeout.count).consume
    (.eof s.index asked) .stop

def cancel (s : GenAIStreamBuffer) : GenAIStreamBuffer :=
  if s.closed then s else s.reportError

/-! ## Chunks -/

def normalizeChunk (s : GenAIStreamBuffer) (event : GenAIStreamChunkEvent) :
    GenAIStreamBuffer × GenAIStreamChunkEvent :=
  let chunk (index : ℤ) : GenAIStreamChunkEvent :=
    { event with
      index := some index
      chars := some (event.chars.getD event.data.length)
      bytes := some (event.bytes.getD (byteLength event.data)) }
  match event.index with
  | some index => (s, chunk index)
  | none => (s.count, chunk s.index)

/-- `enqueue` up to its first `await`. -/
def enqueue (s : GenAIStreamBuffer) (event : GenAIStreamChunkEvent) : GenAIStreamBuffer :=
  let (s, chunk) := s.normalizeChunk event
  let s := { s with
    loadedChars := s.loadedChars + chunk.size
    loadedBytes := s.loadedBytes + chunk.byteSize
    loadedTokens := s.loadedTokens + chunk.tokens.getD 0
    queue := s.queue ++ [chunk]
    accepted := s.accepted ++ [chunk] }
  if s.options.emitProgress then s.emitProgress .enqueued else s.enqueued

/-- The index of `normalizeEvent`. -/
def normalizeIndex (s : GenAIStreamBuffer) : Option ℤ → GenAIStreamBuffer × ℤ
  | some index => (s, index)
  | none => (s.count, s.index)

def start (s : GenAIStreamBuffer) : GenAIStreamBuffer :=
  if s.closed then s else s.scheduleTimeout.count.consume (.start s.index) .stop

def push (s : GenAIStreamBuffer) (event : GenAIStreamEvent) : GenAIStreamBuffer :=
  if s.closed then s
  else
    let s := s.scheduleTimeout
    match event with
    | .chunk event =>
      let (s, index) := s.normalizeIndex event.index
      s.enqueue { event with index := some index }
    | .eof index => (s.normalizeIndex index).1.close
    | .error index => (s.normalizeIndex index).1.reportError
    | .other index =>
      let (s, index) := s.normalizeIndex index
      s.consume (.pushed index) .stop

def write (s : GenAIStreamBuffer) (data : JSString) (tokens : Option ℚ) : GenAIStreamBuffer :=
  s.push (.chunk ⟨none, data, none, none, tokens⟩)

structure Snapshot where
  pendingChunks : Nat
  pendingChars : ℚ
  pendingBytes : ℚ
  loadedChars : ℚ
  loadedBytes : ℚ
  loadedTokens : ℚ
  closed : Bool

def snapshot (s : GenAIStreamBuffer) : Snapshot :=
  { pendingChunks := s.queue.length
    pendingChars := (s.queue.map (·.size)).sum
    pendingBytes := (s.queue.map (·.byteSize)).sum
    loadedChars := s.loadedChars
    loadedBytes := s.loadedBytes
    loadedTokens := s.loadedTokens
    closed := s.closed }

/-! ## Going on -/

/-- A task goes on. -/
def resume (s : GenAIStreamBuffer) (ok : Bool) : Continuation → GenAIStreamBuffer
  | .stop => s
  | .flushed asked => s.flushed asked ok
  | .enqueued => if ok then s.enqueued else s
  | .interval => if ok then s else s.reportError
  | .closing asked => if ok then s.closing asked else s

/-- The callback of the progress timer. -/
def fireProgress (s : GenAIStreamBuffer) : GenAIStreamBuffer :=
  if s.closed ∨ s.queue = [] then s.clearProgressTimer else s.emitProgress .interval

end GenAIStreamBuffer

/-! ## What can happen to a buffer -/

inductive BufferEvent where
  | start
  | push (event : GenAIStreamEvent)
  | flush
  | close
  | cancel
  /-- a task goes on; its promise is fulfilled, or rejected -/
  | resume (i : Nat) (ok : Bool)
  | fireFlush
  | fireProgress
  | fireTimeout

namespace GenAIStreamBuffer

/-- One event; `none` where it cannot happen. -/
def step (s : GenAIStreamBuffer) : BufferEvent → Option GenAIStreamBuffer
  | .start => some s.start
  | .push event => some (s.push event)
  | .flush => some (s.flush none)
  | .close => some s.close
  | .cancel => some s.cancel
  | .resume i ok =>
    match s.tasks[i]? with
    | some task =>
      if task.consuming ∨ ok then
        some ({ s with tasks := s.tasks.eraseIdx i }.resume ok task.continuation)
      else none
    | none => none
  | .fireFlush => if s.timer = some true then some ({ s with timer := some false }.flush none) else none
  | .fireProgress => if s.progressTimer then some s.fireProgress else none
  | .fireTimeout =>
    if s.timeoutTimer = some true then some { s with timeoutTimer := some false }.reportError
    else none

variable {s s' : GenAIStreamBuffer}

theorem step_resume {i : Nat} {ok : Bool} (h : s.step (.resume i ok) = some s') :
    ∃ task, s.tasks[i]? = some task ∧ (task.consuming ∨ ok) ∧
      { s with tasks := s.tasks.eraseIdx i }.resume ok task.continuation = s' := by
  simp only [step] at h
  split at h
  · rename_i task found
    obtain ⟨can, resumed⟩ := Option.ite_none_right_eq_some.mp h
    exact ⟨task, found, can, Option.some.inj resumed⟩
  · cases h

theorem step_fireFlush (h : s.step .fireFlush = some s') :
    { s with timer := some false }.flush none = s' :=
  Option.some.inj (Option.ite_none_right_eq_some.mp h).2

theorem step_fireProgress (h : s.step .fireProgress = some s') : s.fireProgress = s' :=
  Option.some.inj (Option.ite_none_right_eq_some.mp h).2

theorem step_fireTimeout (h : s.step .fireTimeout = some s') :
    { s with timeoutTimer := some false }.reportError = s' :=
  Option.some.inj (Option.ite_none_right_eq_some.mp h).2

end GenAIStreamBuffer

end LemonModel
