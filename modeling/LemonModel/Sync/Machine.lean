import LemonModel.Sync.Mirror

/-!
# The sync machine

`SyncMachine` with its handles, each told apart by its place among all that were
registered. Code that runs without a break is on `stack`: the fan-out of a message, and
the listeners of a change event, which may call the machine and its handles. Replies
and messages come when nothing runs.
-/

namespace LemonModel

open Text

variable {M : Type} [SyncTarget M]

/-- What can be seen of a handle from outside: its store and watermark, how many models
were written to the store, and how many page requests and calls of listeners were made. -/
structure SyncObserved (M : Type) where
  store : Dict JSString M
  watermark : ℚ
  written : Nat
  requests : Nat
  calls : Nat

/-- A registered handle; `atClose` has what was seen of it when it was closed. -/
structure SyncEntry (M : Type) where
  type : JSString
  handle : ModelSyncHandle M
  written : Nat
  requests : Nat
  calls : Nat
  atClose : Option (SyncObserved M)

namespace SyncEntry

omit [SyncTarget M] in
def observed (x : SyncEntry M) : SyncObserved M :=
  ⟨x.handle.store, x.handle.watermark, x.written, x.requests, x.calls⟩

omit [SyncTarget M] in
/-- `doPull` goes on to its next request, or to the next of its listeners, or ends. -/
def goOn (x : SyncEntry M) (handle : ModelSyncHandle M) : SyncEntry M :=
  match handle.pulling.map Pull.phase with
  | some .requesting => { x with handle, requests := x.requests + 1 }
  | some (.telling _ _) => { x with handle, calls := x.calls + 1 }
  | none => { x with handle }

omit [SyncTarget M] in
def pull (x : SyncEntry M) : SyncEntry M :=
  if x.handle.closed ∨ x.handle.pulling.isSome then x
  else { x with handle := x.handle.pull, requests := x.requests + 1 }

/-- The reply to the request that is out; `none` where there is none. -/
def page (x : SyncEntry M) (models : List M) (next : Bool) : Option (SyncEntry M) :=
  (x.handle.step (.page models next)).map
    (goOn { x with written := x.written + (x.handle.appliedBy (.page models next)).length })

/-- The request is rejected. -/
def fail (x : SyncEntry M) : Option (SyncEntry M) :=
  (x.handle.step .fail).map fun handle => { x with handle }

/-- A listener of the page returns, or throws. -/
def told (x : SyncEntry M) (ok : Bool) : Option (SyncEntry M) :=
  (x.handle.step (.told ok)).map x.goOn

/-- The listeners that `applyEvent` calls, one after the other. -/
def listening (x : SyncEntry M) (models : Option (List M)) : List Nat :=
  if x.handle.appliedBy (.event models) = [] then [] else x.handle.changeListeners

/-- `applyEvent` up to the first of its listeners. -/
def applyEvent (x : SyncEntry M) (models : Option (List M)) : SyncEntry M :=
  { x with
    handle := x.handle.applyEvent models
    written := x.written + (x.handle.appliedBy (.event models)).length
    calls := if x.listening models = [] then x.calls else x.calls + 1 }

omit [SyncTarget M] in
def close (x : SyncEntry M) : SyncEntry M :=
  if x.handle.closed then x
  else { x with handle := x.handle.close, atClose := some x.observed }

end SyncEntry

/-- What runs: a fan-out, with the handles left; or the listeners of an event, the first
of which is being called; or those of a page. -/
inductive SyncFrame where
  | dispatch (left : List Nat)
  | event (handle : Nat) (listeners : List Nat)
  | page (handle : Nat)
  deriving DecidableEq

structure SyncMachine (M : Type) where
  handles : Dict JSString Nat
  entries : List (SyncEntry M)
  closed : Bool
  stack : List SyncFrame

inductive SyncMachineEvent (M : Type) where
  | register (type : JSString) (adapter : SyncProtocolAdapter M) (initialPull : Option Bool)
  | tick
  | close
  | pull (handle : Nat)
  | onChange (handle listener : Nat)
  | unsubscribe (handle listener : Nat)
  | closeHandle (handle : Nat)
  /-- the client passes a message of this type to the machine -/
  | message (type : JSString)
  /-- the fan-out goes on; `models` is what `parseEvent` of the next handle returns -/
  | proceed (models : Option (List M))
  /-- `parseEvent` of the next handle throws -/
  | parseThrows
  | page (handle : Nat) (models : List M) (next : Bool)
  | fail (handle : Nat)
  /-- the listener that runs returns, or throws -/
  | told (ok : Bool)

namespace SyncMachine

def NON_EVENT_TYPES : List JSString := [lit "result", lit "error", lit "ping", lit "pong"]

omit [SyncTarget M] in
def create : SyncMachine M := ⟨.empty, [], false, []⟩

omit [SyncTarget M] in
/-- Whether other code than the fan-out may call the machine. -/
def calling (s : SyncMachine M) : Bool :=
  match s.stack with
  | .dispatch _ :: _ => false
  | _ => true

omit [SyncTarget M] in
/-- A handle changes; `none` where there is none, or where this cannot happen to it. -/
def change (s : SyncMachine M) (handle : Nat) (f : SyncEntry M → Option (SyncEntry M)) :
    Option (SyncMachine M) :=
  s.entries[handle]?.bind fun x => (f x).map fun y => { s with entries := s.entries.set handle y }

/-- A call that throws changes nothing. -/
def register (s : SyncMachine M) (type : JSString) (adapter : SyncProtocolAdapter M)
    (initialPull : Option Bool) : SyncMachine M :=
  if type = [] ∨ s.closed ∨ s.handles.has type then s
  else
    let entry : SyncEntry M := ⟨type, .create adapter, 0, 0, 0, none⟩
    { s with
      handles := s.handles.set type s.entries.length
      entries := s.entries ++ [if initialPull.getD true then entry.pull else entry] }

omit [SyncTarget M] in
def tick (s : SyncMachine M) : SyncMachine M :=
  { s with
    entries := (s.handles.entries.map (·.2)).foldl (fun l handle => l.modify handle .pull)
      s.entries }

omit [SyncTarget M] in
/-- `close` of a handle, with its `onClose`. -/
def closeHandle (s : SyncMachine M) (handle : Nat) : SyncMachine M :=
  match s.entries[handle]? with
  | none => s
  | some x =>
    if x.handle.closed then s
    else { s with entries := s.entries.set handle x.close, handles := s.handles.delete x.type }

omit [SyncTarget M] in
def close (s : SyncMachine M) : SyncMachine M :=
  if s.closed then s
  else
    { (s.handles.entries.map (·.2)).foldl closeHandle { s with closed := true } with
      handles := .empty }

omit [SyncTarget M] in
/-- `dispatchEvent` up to the first handle. -/
def dispatchEvent (s : SyncMachine M) (type : JSString) : SyncMachine M :=
  if type ∈ NON_EVENT_TYPES then s
  else { s with stack := .dispatch (s.handles.entries.map (·.2)) :: s.stack }

omit [SyncTarget M] in
/-- The frame of a page whose listeners are being called. -/
def pageFrame (x : SyncEntry M) (handle : Nat) : List SyncFrame :=
  match x.handle.pulling.map Pull.phase with
  | some (.telling _ _) => [.page handle]
  | _ => []

/-- The fan-out goes on with its next handle, or ends. -/
def proceed (s : SyncMachine M) (models : Option (List M)) : Option (SyncMachine M) :=
  match s.stack with
  | .dispatch [] :: below => some { s with stack := below }
  | .dispatch (handle :: left) :: below =>
    s.entries[handle]?.bind fun x =>
      some
        { s with
          entries := s.entries.set handle (x.applyEvent models)
          stack :=
            if x.listening models = [] then .dispatch left :: below
            else .event handle (x.listening models) :: .dispatch left :: below }
  | _ => none

/-- The listener that runs returns or throws; what it throws leaves the fan-out too. -/
def told (s : SyncMachine M) (ok : Bool) : Option (SyncMachine M) :=
  match s.stack with
  | .event handle (_ :: rest) :: below =>
    if ok = false then some { s with stack := below.drop 1 }
    else if rest = [] then some { s with stack := below }
    else
      ({ s with stack := .event handle rest :: below } : SyncMachine M).change handle fun x =>
        some { x with calls := x.calls + 1 }
  | .page handle :: below =>
    s.entries[handle]?.bind fun x => (x.told ok).map fun y =>
      { s with entries := s.entries.set handle y, stack := pageFrame y handle ++ below }
  | _ => none

/-- One event; `none` where it cannot happen. -/
def step (s : SyncMachine M) : SyncMachineEvent M → Option (SyncMachine M)
  | .register type adapter initialPull =>
    if s.calling then some (s.register type adapter initialPull) else none
  | .tick => if s.calling then some s.tick else none
  | .close => if s.calling then some s.close else none
  | .pull handle => if s.calling then s.change handle fun x => some x.pull else none
  | .onChange handle listener =>
    if s.calling then
      s.change handle fun x => some { x with handle := x.handle.onChange listener }
    else none
  | .unsubscribe handle listener =>
    if s.calling then
      s.change handle fun x => some { x with handle := x.handle.unsubscribe listener }
    else none
  | .closeHandle handle => if s.calling then some (s.closeHandle handle) else none
  | .message type => if s.stack = [] then some (s.dispatchEvent type) else none
  | .proceed models => s.proceed models
  | .parseThrows =>
    match s.stack with
    | .dispatch (_ :: _) :: below => some { s with stack := below }
    | _ => none
  | .page handle models next =>
    if s.stack = [] then
      s.entries[handle]?.bind fun x => (x.page models next).map fun y =>
        { s with entries := s.entries.set handle y, stack := pageFrame y handle }
    else none
  | .fail handle => if s.stack = [] then s.change handle fun x => x.fail else none
  | .told ok => s.told ok

end SyncMachine

end LemonModel
