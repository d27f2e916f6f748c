import LemonModel.Base.Dict
import LemonModel.Base.Run
import LemonModel.Text.Json
import LemonModel.Upload.Pool
import LemonModel.Upload.Tracker

/-!
# Upload engine

`UploadEngine.upload`: hash and start, run the executors in the pool, complete, and join
the answer to the tickets.
-/

namespace LemonModel

open Text

/-! ## The contract -/

/-- One upload as the server describes it; the engine reads the id only. -/
structure Upload where
  id : Option JSString
  fields : List (JSString × Json)
  deriving DecidableEq

/-- An id that is not the empty string. -/
def Upload.id? (u : Upload) : Option JSString := u.id.filter (· ≠ [])

/-- The kinds of transfer a slot was given, for the original and for the thumbnail. -/
structure UploadTicket where
  upload : Upload
  transfer : Option JSString
  thumbnailTransfer : Option JSString
  deriving DecidableEq

/-- A code of the contract, or the property of that name an empty object inherits. -/
inductive UploadFailureCode where
  | code (text : JSString)
  | inherited (key : JSString)
  deriving DecidableEq

instance : Coe JSString UploadFailureCode := ⟨.code⟩

structure UploadFailure where
  source : JSString
  code : UploadFailureCode
  status : Option Nat
  reason : Option JSString
  message : Option JSString
  deriving DecidableEq

structure UploadCompleteItem where
  id : JSString
  failure : Option UploadFailure
  deriving DecidableEq

structure UploadSource where
  contentSize : Double
  thumbnail : Option Double

/-- Bytes this source puts on the wire in total. -/
def UploadSource.size (s : UploadSource) : Double := s.contentSize + s.thumbnail.getD 0

/-- How the promise of an executor settles. `text` is the message of what was thrown, and
missing when `String` cannot convert it. -/
inductive ExecutorOutcome where
  | receipt (item : UploadCompleteItem)
  | throws (text : Option JSString)
  deriving DecidableEq

/-! ## One transfer -/

/-- Where `transferTracked` is. -/
inductive TransferPhase where
  /-- It waits for the executor of the original. -/
  | original
  /-- It waits for the executor of the thumbnail. -/
  | thumbnail (receipt : UploadCompleteItem)
  /-- It is about to return, or to reject (`none`). -/
  | done (result : Option (Option UploadCompleteItem))
  deriving DecidableEq

def notAcceptable : UploadFailure := ⟨lit "client", lit "not-acceptable", none, none, none⟩

def thrown (message : JSString) : UploadFailure :=
  ⟨lit "client", lit "unknown", none, none, some message⟩

/-- `transferThumbnail`, and what comes before it. -/
def afterOriginal (executors : List JSString) (ticket : UploadTicket)
    (thumbnail : Option Double) (receipt : UploadCompleteItem) : TransferPhase :=
  if receipt.failure.isSome then .done (some (some receipt))
  else
    match ticket.thumbnailTransfer, thumbnail with
    | some kind, some _ =>
      if kind ∈ executors then .thumbnail receipt else .done (some (some receipt))
    | _, _ => .done (some (some receipt))

/-- `transfer`, up to where it waits for an executor. -/
def transfer (executors : List JSString) (ticket : UploadTicket) (thumbnail : Option Double) :
    TransferPhase :=
  match ticket.upload.id? with
  | none => .done (some none)
  | some id =>
    match ticket.transfer with
    | none => afterOriginal executors ticket thumbnail ⟨id, none⟩
    | some kind =>
      if kind ∈ executors then .original
      else afterOriginal executors ticket thumbnail ⟨id, some notAcceptable⟩

/-- The executor of the original settles. -/
def settleOriginal (executors : List JSString) (ticket : UploadTicket) (thumbnail : Option Double) :
    ExecutorOutcome → TransferPhase
  | .receipt item => afterOriginal executors ticket thumbnail item
  | .throws text =>
    match ticket.upload.id? with
    | none => .done (some none)
    | some id => .done (text.map fun message => some ⟨id, some (thrown message)⟩)

/-! ## The upload -/

/-- What an upload rejects with. -/
inductive UploadFault where
  | hashing
  | start
  | transfer
  | complete
  deriving DecidableEq

inductive UploadStage where
  | hashing
  | starting
  | transferring
  | completing
  | resolved (views : List Upload)
  | rejected (fault : UploadFault)
  deriving DecidableEq

/-- One call of `upload`. `originals`, `completes` and `settled` are a record: how the
executors of the originals settled, what `complete` was called with, and its answer. -/
structure UploadRun where
  executors : List JSString
  concurrency : Option Int
  sources : List UploadSource
  stage : UploadStage
  tickets : List UploadTicket
  phases : Nat → TransferPhase
  pool : Pool (Option UploadCompleteItem)
  tracker : UploadProgressTracker
  originals : Nat → Option ExecutorOutcome
  completes : List (List UploadCompleteItem)
  settled : List Upload

inductive UploadEvent where
  /-- The sources were hashed. -/
  | hashed (ok : Bool)
  /-- `start` answers, or rejects. -/
  | started (answer : Option (List UploadTicket))
  /-- An executor reports progress of an original or of a thumbnail. -/
  | report (i : Nat) (thumbnail : Bool) (sent : Double)
  /-- The executor of an original settles. -/
  | original (i : Nat) (outcome : ExecutorOutcome)
  /-- The executor of a thumbnail settles. -/
  | thumbnail (i : Nat) (outcome : ExecutorOutcome)
  /-- `transferTracked` returns to the pool. -/
  | finish (i : Nat)
  /-- `complete` answers, or rejects. -/
  | completed (answer : Option (List Upload))

/-- The last view of each id in the answer of `complete`. -/
def byId (settled : List Upload) : Dict JSString Upload :=
  settled.foldl (fun views u => match u.id? with
    | some id => views.set id u
    | none => views) .empty

/-- `complete`'s view of a slot, or else the view of its ticket. -/
def viewOf (settled : List Upload) (ticket : UploadTicket) : Upload :=
  (ticket.upload.id?.bind (byId settled).get?).getD ticket.upload

namespace UploadRun

/-- `upload(sources)`. -/
def create (executors : List JSString) (concurrency : Option Int) (sources : List UploadSource) :
    UploadRun where
  executors := executors
  concurrency := concurrency
  sources := sources
  stage := .hashing
  tickets := []
  phases := fun _ => .done (some none)
  pool := .start _ 0 0
  tracker := (UploadProgressTracker.create (sources.map UploadSource.size)).publish
  originals := fun _ => none
  completes := []
  settled := []

variable (u : UploadRun)

/-- The results view by view. -/
def join (settled : List Upload) : UploadRun :=
  { u with stage := .resolved (u.tickets.map (viewOf settled)), settled := settled }

/-- All transfers are through: settle every file, and complete what has an id. -/
def afterPool : UploadRun :=
  let u := { u with
    tracker := (List.range u.sources.length).foldl UploadProgressTracker.settle u.tracker }
  let pending := u.pool.results.filterMap Option.join
  if pending = [] then u.join []
  else { u with stage := .completing, completes := u.completes ++ [pending] }

/-- Go on as soon as the pool resolves or rejects. -/
def awaitPool : UploadRun :=
  if u.stage ≠ .transferring then u
  else if u.pool.failed then { u with stage := .rejected .transfer }
  else if u.pool.running = [] then u.afterPool
  else u

/-- The thumbnail that goes with a ticket. -/
def thumbnailOf (i : Nat) : Option Double := (u.sources[i]?).bind UploadSource.thumbnail

/-- A `start` that answers with more tickets than there are sources is left out. -/
def step : UploadEvent → Option UploadRun
  | .hashed ok =>
    if u.stage = .hashing then
      some { u with stage := if ok then .starting else .rejected .hashing }
    else none
  | .started none =>
    if u.stage = .starting then some { u with stage := .rejected .start } else none
  | .started (some tickets) =>
    if u.stage = .starting ∧ tickets.length ≤ u.sources.length then
      some (awaitPool
        { u with
          stage := .transferring
          tickets := tickets
          phases := fun i => (tickets[i]?).elim (.done (some none)) fun ticket =>
            transfer u.executors ticket (u.thumbnailOf i)
          pool := .start _ tickets.length (u.concurrency.getD 3) })
    else none
  | .report i thumbnail sent =>
    match u.sources[i]? with
    | some source =>
      if i ∈ u.pool.started then
        some { u with
          tracker := u.tracker.sink i (if thumbnail then source.contentSize + sent else sent) }
      else none
    | none => none
  | .original i outcome =>
    match u.tickets[i]? with
    | some ticket =>
      if i ∈ u.pool.running ∧ u.phases i = .original then
        some { u with
          phases := Function.update u.phases i
            (settleOriginal u.executors ticket (u.thumbnailOf i) outcome)
          originals := Function.update u.originals i (some outcome) }
      else none
    | none => none
  | .thumbnail i _ =>
    match u.phases i with
    | .thumbnail receipt =>
      if i ∈ u.pool.running then
        some { u with phases := Function.update u.phases i (.done (some (some receipt))) }
      else none
    | _ => none
  | .finish i =>
    match u.phases i with
    | .done result =>
      if i ∈ u.pool.running then
        some (awaitPool
          { u with tracker := u.tracker.settle i, pool := u.pool.settle i result })
      else none
    | _ => none
  | .completed none =>
    if u.stage = .completing then some { u with stage := .rejected .complete } else none
  | .completed (some settled) =>
    if u.stage = .completing then some (u.join settled) else none

/-- What a step can do, and when. -/
inductive Does (u : UploadRun) : UploadEvent → UploadRun → Prop where
  | hashed (ok : Bool) : u.stage = .hashing →
    Does u (.hashed ok) { u with stage := if ok then .starting else .rejected .hashing }
  | refused : u.stage = .starting → Does u (.started none) { u with stage := .rejected .start }
  | started (tickets : List UploadTicket) : u.stage = .starting →
    tickets.length ≤ u.sources.length →
    Does u (.started (some tickets)) (awaitPool
      { u with
        stage := .transferring
        tickets := tickets
        phases := fun i => (tickets[i]?).elim (.done (some none)) fun ticket =>
          transfer u.executors ticket (u.thumbnailOf i)
        pool := .start _ tickets.length (u.concurrency.getD 3) })
  | report (i : Nat) (thumbnail : Bool) (sent : Double) (source : UploadSource) :
    u.sources[i]? = some source → i ∈ u.pool.started →
    Does u (.report i thumbnail sent)
      { u with tracker := u.tracker.sink i (if thumbnail then source.contentSize + sent else sent) }
  | original (i : Nat) (outcome : ExecutorOutcome) (ticket : UploadTicket) :
    u.tickets[i]? = some ticket → i ∈ u.pool.running → u.phases i = .original →
    Does u (.original i outcome)
      { u with
        phases := Function.update u.phases i
          (settleOriginal u.executors ticket (u.thumbnailOf i) outcome)
        originals := Function.update u.originals i (some outcome) }
  | thumbnail (i : Nat) (outcome : ExecutorOutcome) (receipt : UploadCompleteItem) :
    u.phases i = .thumbnail receipt → i ∈ u.pool.running →
    Does u (.thumbnail i outcome)
      { u with phases := Function.update u.phases i (.done (some (some receipt))) }
  | finish (i : Nat) (result : Option (Option UploadCompleteItem)) : u.phases i = .done result →
    i ∈ u.pool.running →
    Does u (.finish i)
      (awaitPool { u with tracker := u.tracker.settle i, pool := u.pool.settle i result })
  | unconfirmed : u.stage = .completing →
    Does u (.completed none) { u with stage := .rejected .complete }
  | joined (settled : List Upload) : u.stage = .completing →
    Does u (.completed (some settled)) (u.join settled)

theorem step_does {u u' : UploadRun} {e : UploadEvent} (hstep : u.step e = some u') :
    Does u e u' := by
  cases e with
  | hashed ok =>
    obtain ⟨stage, done⟩ := Option.ite_none_right_eq_some.mp hstep
    cases done
    exact .hashed ok stage
  | started answer =>
    cases answer with
    | none =>
      obtain ⟨stage, done⟩ := Option.ite_none_right_eq_some.mp hstep
      cases done
      exact .refused stage
    | some tickets =>
      obtain ⟨⟨stage, fits⟩, done⟩ := Option.ite_none_right_eq_some.mp hstep
      cases done
      exact .started tickets stage fits
  | report i thumbnail sent =>
    simp only [step] at hstep
    split at hstep
    · rename_i source at_
      obtain ⟨began, done⟩ := Option.ite_none_right_eq_some.mp hstep
      cases done
      exact .report i thumbnail sent source at_ began
    · cases hstep
  | original i outcome =>
    simp only [step] at hstep
    split at hstep
    · rename_i ticket at_
      obtain ⟨⟨mem, phase⟩, done⟩ := Option.ite_none_right_eq_some.mp hstep
      cases done
      exact .original i outcome ticket at_ mem phase
    · cases hstep
  | thumbnail i outcome =>
    simp only [step] at hstep
    split at hstep
    · rename_i receipt phase
      obtain ⟨mem, done⟩ := Option.ite_none_right_eq_some.mp hstep
      cases done
      exact .thumbnail i outcome receipt phase mem
    · cases hstep
  | finish i =>
    simp only [step] at hstep
    split at hstep
    · rename_i result phase
      obtain ⟨mem, done⟩ := Option.ite_none_right_eq_some.mp hstep
      cases done
      exact .finish i result phase mem
    · cases hstep
  | completed answer =>
    cases answer with
    | none =>
      obtain ⟨stage, done⟩ := Option.ite_none_right_eq_some.mp hstep
      cases done
      exact .unconfirmed stage
    | some settled =>
      obtain ⟨stage, done⟩ := Option.ite_none_right_eq_some.mp hstep
      cases done
      exact .joined settled stage

end UploadRun

end LemonModel
