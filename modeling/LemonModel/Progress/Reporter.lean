import LemonModel.Base.Dict
import LemonModel.Base.Run
import LemonModel.Text.Json

/-!
# Progress reporter

`createProgressReporter`: the tasks, their throttle windows, and what every call does
to them. What the sink, the gauges, the observer of errors and `JSON.stringify` do
comes with the call; an exception they let out ends it.
-/

namespace LemonModel

open Text

inductive ProgressStatus where
  | pending
  | running
  | done
  | error
  deriving DecidableEq

/-- The explicit fields of a snapshot. -/
inductive ProgressField where
  | percent
  | step
  | totalSteps
  | label
  | error
  | metadata
  deriving DecidableEq

/-- The value of a field; `unprintable` is one `JSON.stringify` throws on. -/
inductive FieldValue where
  | json (j : Json)
  | unprintable
  deriving DecidableEq

def FieldValue.json? : FieldValue → Option Json
  | .json j => some j
  | .unprintable => none

/-- The fields that are not `undefined`. -/
abbrev ProgressFields := ProgressField → Option FieldValue

structure ProgressState where
  id : JSString
  status : ProgressStatus
  fields : ProgressFields
  ts : Nat
  seq : Nat

/-- `assignDefined`. -/
def ProgressFields.assignDefined (target patch : ProgressFields) : ProgressFields :=
  fun k => (patch k).or (target k)

def ProgressFields.empty : ProgressFields := fun _ => none

def ProgressFields.put (fields : ProgressFields) (k : ProgressField) (v : FieldValue) :
    ProgressFields :=
  fun k' => if k' = k then some v else fields k'

/-! ## Messages -/

def ProgressStatus.text : ProgressStatus → JSString
  | .pending => lit "pending"
  | .running => lit "running"
  | .done => lit "done"
  | .error => lit "error"

def ProgressField.text : ProgressField → JSString
  | .percent => lit "percent"
  | .step => lit "step"
  | .totalSteps => lit "totalSteps"
  | .label => lit "label"
  | .error => lit "error"
  | .metadata => lit "meta"

def ProgressField.all : List ProgressField := [.percent, .step, .totalSteps, .label, .error, .metadata]

/-- The fields as members; `none` if one of them cannot be printed. -/
def ProgressFields.members (fields : ProgressFields) : Option (List (JSString × Json)) :=
  (ProgressField.all.filterMap fun k => (fields k).map (k, ·)).mapM fun p =>
    p.2.json?.map (p.1.text, ·)

def ProgressState.json (s : ProgressState) : Option Json :=
  s.fields.members.map fun members => .obj ((lit "id", .str s.id) ::
    (lit "status", .str s.status.text) ::
      (members ++ [(lit "ts", .ofNat s.ts), (lit "seq", .ofNat s.seq)]))

/-- `byteLength(JSON.stringify(message))`; `none` if that throws. -/
def messageBytes (type : JSString) (s : ProgressState) (mid : Nat) : Option Nat :=
  s.json.map fun data => byteLength (Json.obj [(lit "type", .str type), (lit "data", data),
    (lit "mid", .str (unit 'p' :: natText mid))]).text

/-! ## Tasks -/

/-- `timer` tells whether the throttle window is open. `mid` is a record: the number of the
message that carried `last`. -/
structure ProgressTask where
  state : ProgressState
  last : ProgressState
  mid : Nat
  gauge : Bool
  timer : Bool
  dirty : Bool
  closed : Bool

/-- `sent` is a record: the snapshots that were handed to the sink, the newest first. -/
structure ProgressReporter where
  type : JSString
  throttleMs : ℚ
  heartbeatMs : ℚ
  maxPacketBytes : ℚ
  tasks : Dict JSString ProgressTask
  seq : Nat
  mid : Nat
  beating : Bool
  sent : List ProgressState

inductive SinkOutcome where
  | returns
  | throws
  | rejects
  deriving DecidableEq

/-- Why `onError` is called. -/
inductive Observed where
  | gauge
  | size
  | sink
  deriving DecidableEq

/-- What the code a call runs into does, for the emission of each task. -/
structure Surroundings where
  now : Nat
  /-- the measure of the gauge; `none` if it throws -/
  measure : JSString → Option ProgressFields
  sink : JSString → SinkOutcome
  /-- does `onError` throw -/
  observer : JSString → Observed → Bool

def DEFAULT_MAX_PACKET_BYTES : ℚ := 64 * 1024

namespace ProgressReporter

/-- `createProgressReporter`, with the options it was given. -/
def create (type : Option JSString) (throttleMs heartbeatMs maxPacketBytes : Option ℚ) :
    ProgressReporter where
  type := type.getD (lit "progress:update")
  throttleMs := throttleMs.getD 0
  heartbeatMs := heartbeatMs.getD 0
  maxPacketBytes := maxPacketBytes.getD DEFAULT_MAX_PACKET_BYTES
  tasks := .empty
  seq := 0
  mid := 0
  beating := 0 < heartbeatMs.getD 0
  sent := []

def GAUGE_KEYS : List ProgressField := [.percent, .step, .totalSteps, .label]

/-- The gauge fills in what is not explicit. -/
def merge (fields measure : ProgressFields) : ProgressFields :=
  fun k => (fields k).or (if k ∈ GAUGE_KEYS then measure k else none)

/-- `const { meta: _meta, ...stripped } = snapshot`. -/
def strip (s : ProgressState) : ProgressState :=
  { s with fields := fun k => if k = .metadata then none else s.fields k }

variable (env : Surroundings) (r : ProgressReporter)

def put (id : JSString) (task : ProgressTask) : ProgressReporter :=
  { r with tasks := r.tasks.set id task }

/-- `task.last = message.data; dispatch(message)`. What the sink throws goes to `onError`. -/
def dispatch (id : JSString) (task : ProgressTask) (data : ProgressState) :
    ProgressReporter × Bool :=
  ({ r with
      tasks := r.tasks.set id { task with last := data, mid := r.mid }
      sent := data :: r.sent },
    env.sink id = .throws ∧ env.observer id .sink)

/-- The message of a snapshot, without `meta` where it is too large. -/
def pack (id : JSString) (task : ProgressTask) (snapshot : ProgressState) :
    ProgressReporter × Bool :=
  let r := { r with mid := r.mid + 1 }
  if snapshot.fields .metadata = none then r.dispatch env id task snapshot
  else
    match messageBytes r.type snapshot r.mid with
    | none => (r.put id task, true)
    | some bytes =>
      if r.maxPacketBytes < (bytes : ℚ) then
        if env.observer id .size then (r.put id task, true)
        else r.dispatch env id task (strip snapshot)
      else r.dispatch env id task snapshot

/-- `emit(task)`, and whether an exception came out. -/
def emit (id : JSString) (task : ProgressTask) : ProgressReporter × Bool :=
  let r := { r with seq := r.seq + 1 }
  let task := { task with dirty := false }
  let snapshot : ProgressState := { task.state with ts := env.now, seq := r.seq }
  if task.gauge then
    match env.measure id with
    | some measure => r.pack env id task { snapshot with fields := merge snapshot.fields measure }
    | none =>
      if env.observer id .gauge then (r.put id task, true) else r.pack env id task snapshot
  else r.pack env id task snapshot

/-- `openWindow(task)`. -/
def openWindow (id : JSString) : ProgressReporter :=
  match r.tasks.get? id with
  | some task => r.put id { task with timer := true }
  | none => r

/-- `emit(task); openWindow(task)`. -/
def emitOpening (id : JSString) (task : ProgressTask) : ProgressReporter × Bool :=
  match r.emit env id task with
  | (r, true) => (r, true)
  | (r, false) => (r.openWindow id, false)

/-- `finish`. -/
def finish (id : JSString) (task : ProgressTask) (status : ProgressStatus) (patch : ProgressFields) :
    ProgressReporter × Bool :=
  if task.closed then (r.put id task, false)
  else
    r.emit env id { task with
      closed := true
      timer := false
      state := { task.state with fields := task.state.fields.assignDefined patch, status } }

/-- `tasks.forEach`; an exception ends it. -/
def forEach (visit : ProgressReporter → JSString → ProgressTask → ProgressReporter × Bool) :
    List JSString → ProgressReporter → ProgressReporter × Bool
  | [], r => (r, false)
  | id :: ids, r =>
    match r.tasks.get? id with
    | some task =>
      match visit r id task with
      | (r, true) => (r, true)
      | (r, false) => forEach visit ids r
    | none => forEach visit ids r

/-! ## The calls -/

def start (id : JSString) (initial : ProgressFields) (gauge : Bool) : ProgressReporter × Bool :=
  match r.tasks.get? id with
  | some _ => (r, false)
  | none =>
    let state : ProgressState := ⟨id, .pending, ProgressFields.empty.assignDefined initial, 0, 0⟩
    r.emit env id ⟨state, state, 0, gauge, false, false, false⟩

/-- `running` does not go back to `pending`. -/
def nextStatus (now : ProgressStatus) : Option ProgressStatus → ProgressStatus
  | some status => if status = .pending ∧ now = .running then now else status
  | none => now

def update (id : JSString) (task : ProgressTask) (status : Option ProgressStatus)
    (rest : ProgressFields) : ProgressReporter × Bool :=
  if task.closed then (r, false)
  else
    let task := { task with
      state := { task.state with
        status := nextStatus task.state.status status
        fields := task.state.fields.assignDefined rest } }
    if r.throttleMs ≤ 0 then r.emit env id task
    else if task.timer then (r.put id { task with dirty := true }, false)
    else r.emitOpening env id task

/-- The window of a task closes. -/
def fireTimer (id : JSString) (task : ProgressTask) : ProgressReporter × Bool :=
  let task := { task with timer := false }
  if task.dirty = false ∨ task.closed then (r.put id task, false)
  else r.emitOpening env id task

def beat (r : ProgressReporter) (id : JSString) (task : ProgressTask) : ProgressReporter × Bool :=
  if task.closed = false ∧ task.state.status = .running then r.emit env id task else (r, false)

/-- What `close` does with one task. -/
def flush (r : ProgressReporter) (id : JSString) (task : ProgressTask) : ProgressReporter × Bool :=
  let task := { task with timer := false }
  if task.dirty ∧ task.closed = false then r.emit env id task else (r.put id task, false)

end ProgressReporter

/-- A call, or a timer that fires. A patch of `update` has a status that is `pending` or
`running`; one of `done` or `error` has a label and `meta`. -/
inductive ReporterEvent where
  | start (id : JSString) (initial : ProgressFields) (gauge : Bool)
  | update (id : JSString) (status : Option ProgressStatus) (rest : ProgressFields)
  | done (id : JSString) (patch : ProgressFields)
  | error (id : JSString) (message : JSString) (patch : ProgressFields)
  | timer (id : JSString)
  | heartbeat
  | close

namespace ProgressReporter

variable (env : Surroundings) (r : ProgressReporter)

/-- What an event does, and whether an exception came out of it. `none` where it cannot
happen: there is no handle, the timer is not set. -/
def handle : ReporterEvent → Option (ProgressReporter × Bool)
  | .start id initial gauge => some (r.start env id initial gauge)
  | .update id status rest => (r.tasks.get? id).map fun task => r.update env id task status rest
  | .done id patch => (r.tasks.get? id).map fun task => r.finish env id task .done patch
  | .error id message patch =>
    (r.tasks.get? id).map fun task =>
      r.finish env id { task with
        state := { task.state with fields := task.state.fields.put .error (.json (.str message)) } }
        .error patch
  | .timer id =>
    match r.tasks.get? id with
    | some task => if task.timer then some (r.fireTimer env id task) else none
    | none => none
  | .heartbeat => if r.beating then some (forEach (beat env) r.tasks.keys r) else none
  | .close => some (forEach (flush env) r.tasks.keys { r with beating := false })

def step (e : ReporterEvent × Surroundings) : Option ProgressReporter :=
  (r.handle e.2 e.1).map Prod.fst

variable {env r} {p : ProgressReporter × Bool}

/-- Only the timer of a task fires that has one. -/
theorem handle_timer {id : JSString} (hp : r.handle env (.timer id) = some p) :
    ∃ t, r.tasks.get? id = some t ∧ t.timer = true ∧ r.fireTimer env id t = p := by
  simp only [handle] at hp
  split at hp
  · rename_i t known
    obtain ⟨timer, fired⟩ := Option.ite_none_right_eq_some.mp hp
    exact ⟨t, known, timer, Option.some.inj fired⟩
  · cases hp

theorem handle_heartbeat (hp : r.handle env .heartbeat = some p) :
    forEach (beat env) r.tasks.keys r = p := by
  obtain ⟨-, beaten⟩ := Option.ite_none_right_eq_some.mp hp
  exact Option.some.inj beaten

end ProgressReporter

end LemonModel
