import LemonModel.Base.Dict
import LemonModel.Transport.Split

/-!
# The receive side of one message

The partial state of a tid, the checks its packets go through, and
`assembleJSON`. Everything here is about one message; the transport that owns
the states is in `LemonModel.Transport.State`.
-/

namespace LemonModel

open Text

/-- `context.scope` of the errors a transport emits. -/
inductive Scope where
  | parse
  | packet
  | error
  | manifestDuplicate
  | chunkHash
  | chunkDuplicate
  | chunkRef
  | chunkTotal
  | refDuplicate
  | refPath
  | refSize
  | partialExpired
  | mismatch
  | failed
  | send
  deriving DecidableEq

def Scope.text : Scope → JSString
  | .parse => lit "json.parse"
  | .packet => lit "json.packet"
  | .error => lit "json.error"
  | .manifestDuplicate => lit "json.manifest.duplicate"
  | .chunkHash => lit "json.chunk.hash"
  | .chunkDuplicate => lit "json.chunk.duplicate"
  | .chunkRef => lit "json.chunk.ref"
  | .chunkTotal => lit "json.chunk.total"
  | .refDuplicate => lit "json.ref.duplicate"
  | .refPath => lit "json.ref.path"
  | .refSize => lit "json.ref.size"
  | .partialExpired => lit "json.partial.expired"
  | .mismatch => lit "json.reliable.mismatch"
  | .failed => lit "json.reliable.failed"
  | .send => lit "json.send"

/-- An error handed to the error listeners. `message` is empty for an error
the transport did not make itself (a `SyntaxError`, a listener's exception). -/
structure Report where
  scope : Scope
  message : JSString
  deriving DecidableEq

/-- `[tail] - scope`, as every message of the transport ends. -/
def report (scope : Scope) (text : JSString) : Report :=
  ⟨scope, text ++ lit " - " ++ scope.text⟩

/-- `JSONReceiveState`. -/
structure JSONReceiveState where
  tid : JSString
  manifest : Option JSONManifestPacket
  complete : Bool
  emitted : Bool
  updatedAt : Nat
  chunks : Dict JSString (Dict Nat JSONChunkPacket)
  deriving DecidableEq

/-- The state `getState` creates. -/
def JSONReceiveState.fresh (tid : JSString) (now : Nat) : JSONReceiveState :=
  ⟨tid, none, false, false, now, .empty⟩

/-- A buffered chunk. -/
def JSONReceiveState.chunk? (state : JSONReceiveState) (cid : JSString) (index : Nat) :
    Option JSONChunkPacket :=
  (state.chunks.get? cid).bind (·.get? index)

/-! ## Checks -/

/-- `marker.$jsonTransportRef` where `isJSONRefMarker(marker)`. -/
def isJSONRefMarker (value : Option Json) : Option JSString :=
  match value with
  | some (.obj props) => ((Json.obj props).prop? (lit "$jsonTransportRef")).bind Json.str?
  | _ => none

/-- The loop of `validateManifest` over the refs left. -/
def validateRefs (root : Json) : List JSString → List JSONChunkRef → Option Report
  | _, [] => none
  | seen, ref :: refs =>
    if ref.cid ∈ seen then
      some (report .refDuplicate (lit "@ref[" ++ ref.cid ++ lit "] is duplicated"))
    else if isJSONRefMarker (getByJSONPointer root ref.path) ≠ some ref.cid then
      some (report .refPath (lit "@ref[" ++ ref.cid ++ lit "] path is invalid"))
    else validateRefs root (ref.cid :: seen) refs

/-- `validateManifest`: the error it emits, if any. -/
def validateManifest (manifest : JSONManifestPacket) : Option Report :=
  validateRefs manifest.root [] manifest.refs

/-- `validateChunkForManifest`. -/
def validateChunkForManifest (manifest : JSONManifestPacket) (packet : JSONChunkPacket) :
    Option Report :=
  match manifest.refs.find? (·.cid = packet.cid) with
  | none => some (report .chunkRef (lit "@chunk[" ++ packet.cid ++ lit "] has no ref"))
  | some ref =>
    if packet.total ≠ ref.chunks then
      some (report .chunkTotal (lit "@chunk[" ++ packet.cid ++ lit "] total mismatch"))
    else none

/-- `validateBufferedChunks`. -/
def validateBufferedChunks (manifest : JSONManifestPacket) (state : JSONReceiveState) :
    Option Report :=
  (state.chunks.entries.flatMap fun e => e.2.entries.map (·.2)).findSome?
    (validateChunkForManifest manifest)

/-- `acceptManifest`: the state after it and the error it emits; it returns
true where there is none. -/
def acceptManifest (reliable : Bool) (state : JSONReceiveState) (packet : JSONManifestPacket) :
    JSONReceiveState × Option Report :=
  match state.manifest with
  | some _ =>
    if reliable then (state, none)
    else (state,
      some (report .manifestDuplicate (lit "@manifest[" ++ packet.tid ++ lit "] is duplicated")))
  | none =>
    match validateManifest packet with
    | some r => (state, some r)
    | none =>
      let state := { state with manifest := some packet }
      (state, validateBufferedChunks packet state)

/-- `byIndex.set(packet.index, packet)`. -/
def JSONReceiveState.buffer (state : JSONReceiveState) (packet : JSONChunkPacket) :
    JSONReceiveState :=
  { state with
    chunks := state.chunks.set packet.cid
      (((state.chunks.get? packet.cid).getD .empty).set packet.index packet) }

/-- `state.chunks.set(packet.cid, new Map())` where there is no map yet. -/
def JSONReceiveState.openCid (state : JSONReceiveState) (cid : JSString) : JSONReceiveState :=
  if state.chunks.has cid then state else { state with chunks := state.chunks.set cid .empty }

def chunkLabel (packet : JSONChunkPacket) : JSString :=
  lit "@chunk[" ++ packet.cid ++ lit ":" ++ natText packet.index ++ lit "]"

/-- `acceptChunk`: the state after it and the error it emits. -/
def acceptChunk (reliable : Bool) (now : Nat) (state : JSONReceiveState) (packet : JSONChunkPacket) :
    JSONReceiveState × Option Report :=
  if packet.hash ≠ hashString packet.data then
    (state, some (report .chunkHash (chunkLabel packet ++ lit " hash mismatch")))
  else
    match state.manifest.bind fun m => validateChunkForManifest m packet with
    | some r => (state, some r)
    | none =>
      let state := state.openCid packet.cid
      if (state.chunk? packet.cid packet.index).isSome then
        if reliable then (state, none)
        else (state, some (report .chunkDuplicate (chunkLabel packet ++ lit " is duplicated")))
      else ({ state.buffer packet with updatedAt := now }, none)

/-! ## Assembly -/

/-- The chunks `0 … chunks - 1` of a ref, where all are there. -/
def gatherParts (byIndex : Dict Nat JSONChunkPacket) (chunks : Nat) : Option (List JSString) :=
  (List.range chunks).mapM fun index => (byIndex.get? index).map (·.data)

/-- The loop of `validateCompletedChunkSizes` over the refs left. It stops at
the first ref that is full by count but has a gap. -/
def checkSizes (state : JSONReceiveState) : List JSONChunkRef → Option Report
  | [] => none
  | ref :: refs =>
    match state.chunks.get? ref.cid with
    | none => checkSizes state refs
    | some byIndex =>
      if byIndex.size < ref.chunks then checkSizes state refs
      else
        match gatherParts byIndex ref.chunks with
        | none => none
        | some parts =>
          if byteLength parts.flatten ≠ ref.size then
            some (report .refSize (lit "@ref[" ++ ref.cid ++ lit "] size mismatch"))
          else checkSizes state refs

/-- `validateCompletedChunkSizes`. -/
def validateCompletedChunkSizes (state : JSONReceiveState) : Option Report :=
  match state.manifest with
  | none => none
  | some manifest => checkSizes state manifest.refs

/-- The joined chunks of a ref. -/
def joinChunks (state : JSONReceiveState) (ref : JSONChunkRef) : Option JSString :=
  (state.chunks.get? ref.cid).bind fun byIndex =>
    if byIndex.size < ref.chunks then none
    else (gatherParts byIndex ref.chunks).map List.flatten

/-- The first loop of `assembleJSON`: the joined string of every ref's cid. -/
def collectValues (state : JSONReceiveState) :
    List JSONChunkRef → Dict JSString JSString → Option (Dict JSString JSString)
  | [], values => some values
  | ref :: refs, values =>
    (joinChunks state ref).bind fun s => collectValues state refs (values.set ref.cid s)

/-- The second loop of `assembleJSON`: `none` where a value is missing. -/
def placeValues (values : Dict JSString JSString) :
    List JSONChunkRef → Json → Except JSString (Option Json)
  | [], root => .ok (some root)
  | ref :: refs, root =>
    match values.get? ref.cid with
    | none => .ok none
    | some s =>
      match setByJSONPointer root ref.path (.str s) with
      | .error e => .error e
      | .ok root => placeValues values refs root

/-- `cloneJSON`. -/
def cloneJSON (value : Json) : Json := (parse value.text).getD .null

/-- `assembleJSON`; an error is the message it throws. -/
def assembleJSON (state : JSONReceiveState) : Except JSString (Option Json) :=
  match state.manifest with
  | none => .ok none
  | some manifest =>
    if !state.complete || state.emitted then .ok none
    else
      match collectValues state manifest.refs .empty with
      | none => .ok none
      | some values => placeValues values manifest.refs (cloneJSON manifest.root)

/-- `JSON.parse` of what `JSON.stringify` wrote cannot throw. -/
theorem cloneJSON_eq {value : Json} (h : value.Wf) : cloneJSON value = value := by
  rw [cloneJSON, parse_text value h, Option.getD_some]

/-- `!data` for a document. -/
def falsy : Json → Bool
  | .null => true
  | .bool b => !b
  | .num n => n.mant == 0
  | .str s => s.isEmpty
  | _ => false

/-! ## One packet -/

/-- What is left of `acceptPacket` once the chunks are in: the sizes, then the
assembly. The errors come in the order they are emitted; the last part is the
assembled message. -/
def finishState (state : JSONReceiveState) (reports : List Report) :
    JSONReceiveState × List Report × Option Json :=
  match validateCompletedChunkSizes state with
  | some r => (state, reports ++ [r], none)
  | none =>
    match assembleJSON state with
    -- the throw is caught in `receive`
    | .error e => (state, reports ++ [⟨.packet, e⟩], none)
    | .ok none => (state, reports, none)
    | .ok (some data) => (state, reports, if falsy data then none else some data)

/-- What a manifest, chunk or complete packet does to the state of its tid. -/
def absorb (reliable : Bool) (now : Nat) (state : JSONReceiveState) :
    JSONTransportPacket → JSONReceiveState × List Report × Option Json
  | .manifest p =>
    match acceptManifest reliable state p with
    | (state, some r) => (state, [r], none)
    | (state, none) => finishState state []
  | .chunk p =>
    match acceptChunk reliable now state p with
    | (state, r) => finishState state r.toList
  | .complete _ => finishState { state with complete := true } []
  | _ => finishState state []

theorem finishState_state (state : JSONReceiveState) (reports : List Report) :
    (finishState state reports).1 = state := by
  unfold finishState
  split
  · rfl
  · split <;> rfl

/-- Whatever comes, a state stays that of its tid. -/
theorem absorb_tid (reliable : Bool) (now : Nat) (s : JSONReceiveState) (p : JSONTransportPacket) :
    (absorb reliable now s p).1.tid = s.tid := by
  have opened : ∀ cid, (s.openCid cid).tid = s.tid := by
    intro cid
    unfold JSONReceiveState.openCid
    split <;> rfl
  cases p with
  | manifest m =>
    have accepted : (acceptManifest reliable s m).1.tid = s.tid := by
      unfold acceptManifest
      repeat' split
      all_goals rfl
    simp only [absorb]
    split
    · rename_i h
      rwa [h] at accepted
    · rename_i h
      rw [h] at accepted
      rw [finishState_state]
      exact accepted
  | chunk c =>
    have accepted : (acceptChunk reliable now s c).1.tid = s.tid := by
      unfold acceptChunk
      split
      · rfl
      · split
        · rfl
        · simp only
          split
          · split <;> exact opened c.cid
          · exact opened c.cid
    simp only [absorb]
    rw [finishState_state]
    exact accepted
  | _ => simp only [absorb, finishState_state]

/-! ## The errors of a packet -/

/-- Every error of `absorb` is about the packet, not about the message's end. -/
def complaints : List Scope :=
  [.packet, .manifestDuplicate, .chunkHash, .chunkDuplicate, .chunkRef, .chunkTotal, .refDuplicate,
    .refPath, .refSize]

theorem validateRefs_scope {root : Json} {refs : List JSONChunkRef} {seen : List JSString}
    {r : Report} (h : validateRefs root seen refs = some r) : r.scope ∈ complaints := by
  induction refs generalizing seen with
  | nil => cases h
  | cons ref refs ih =>
    rw [validateRefs] at h
    split at h
    · cases h; simp [report, complaints]
    · split at h
      · cases h; simp [report, complaints]
      · exact ih h

theorem validateChunk_scope {m : JSONManifestPacket} {p : JSONChunkPacket} {r : Report}
    (h : validateChunkForManifest m p = some r) : r.scope ∈ complaints := by
  unfold validateChunkForManifest at h
  split at h
  · cases h; simp [report, complaints]
  · split at h
    · cases h; simp [report, complaints]
    · cases h

theorem acceptManifest_scope {b : Bool} {s : JSONReceiveState} {p : JSONManifestPacket} {r : Report}
    (h : (acceptManifest b s p).2 = some r) : r.scope ∈ complaints := by
  unfold acceptManifest at h
  split at h
  · split at h
    · cases h
    · cases h; simp [report, complaints]
  · split at h
    · rename_i hv
      cases h
      exact validateRefs_scope hv
    · obtain ⟨a, _, ha⟩ := List.exists_of_findSome?_eq_some h
      exact validateChunk_scope ha

theorem acceptChunk_scope {b : Bool} {now : Nat} {s : JSONReceiveState} {p : JSONChunkPacket}
    {r : Report} (h : (acceptChunk b now s p).2 = some r) : r.scope ∈ complaints := by
  unfold acceptChunk at h
  split at h
  · cases h; simp [report, complaints]
  · split at h
    · rename_i hv
      cases h
      obtain ⟨m, _, hm⟩ := Option.bind_eq_some_iff.mp hv
      exact validateChunk_scope hm
    · simp only at h
      split at h
      · split at h
        · cases h
        · cases h; simp [report, complaints]
      · cases h

theorem checkSizes_scope {s : JSONReceiveState} {refs : List JSONChunkRef} {r : Report}
    (h : checkSizes s refs = some r) : r.scope ∈ complaints := by
  induction refs with
  | nil => cases h
  | cons ref refs ih =>
    rw [checkSizes] at h
    split at h
    · exact ih h
    · split at h
      · exact ih h
      · split at h
        · cases h
        · split at h
          · cases h; simp [report, complaints]
          · exact ih h

theorem finishState_scope {s : JSONReceiveState} {rs : List Report}
    (hrs : ∀ r ∈ rs, r.scope ∈ complaints) : ∀ r ∈ (finishState s rs).2.1, r.scope ∈ complaints := by
  intro r hr
  unfold finishState at hr
  split at hr
  · rename_i hv
    rcases List.mem_append.mp hr with h | h
    · exact hrs r h
    · rw [List.mem_singleton.mp h]
      unfold validateCompletedChunkSizes at hv
      split at hv
      · cases hv
      · exact checkSizes_scope hv
  · split at hr
    · rcases List.mem_append.mp hr with h | h
      · exact hrs r h
      · rw [List.mem_singleton.mp h]
        simp [complaints]
    · exact hrs r hr
    · exact hrs r hr

theorem absorb_scope (b : Bool) (now : Nat) (s : JSONReceiveState) (p : JSONTransportPacket) :
    ∀ r ∈ (absorb b now s p).2.1, r.scope ∈ complaints := by
  cases p with
  | manifest p =>
    simp only [absorb]
    split
    · rename_i hm
      intro r hr
      rw [List.mem_singleton.mp hr]
      exact acceptManifest_scope (congrArg Prod.snd hm)
    · exact finishState_scope (by simp)
  | chunk p =>
    simp only [absorb]
    apply finishState_scope
    intro r hr
    exact acceptChunk_scope (Option.mem_toList.mp hr)
  | complete tid => exact finishState_scope (by simp)
  | error tid text => exact finishState_scope (by simp)
  | ack tid => exact finishState_scope (by simp)
  | nack p => exact finishState_scope (by simp)

end LemonModel
