import LemonModel.Transport.Value

/-!
# Transport packets

The six packet types, the documents they are sent as, and the shape check a
received document has to pass (`isJSONTransportPacket`).
-/

namespace LemonModel

open Text

/-- Metadata for a chunked string leaf. -/
structure JSONChunkRef where
  cid : JSString
  path : JSString
  encoding : JSString
  size : Nat
  chunks : Nat
  pos : 0 < chunks
  deriving DecidableEq

/-- One chunk of a large string leaf. -/
structure JSONChunkPacket where
  tid : JSString
  cid : JSString
  index : Nat
  total : Nat
  data : JSString
  hash : JSString
  lt : index < total
  deriving DecidableEq

/-- The packet preserving the message's shape. `root` is the document the
value in the source serialises to. -/
structure JSONManifestPacket where
  tid : JSString
  root : Json
  refs : List JSONChunkRef
  deriving DecidableEq

structure JSONNackEntry where
  cid : JSString
  missing : List Nat
  deriving DecidableEq

/-- What a receiver is still missing. -/
structure JSONNackPacket where
  tid : JSString
  manifest : Option Bool
  chunks : Option (List JSONNackEntry)
  complete : Option Bool
  deriving DecidableEq

inductive JSONTransportPacket where
  | manifest (p : JSONManifestPacket)
  | chunk (p : JSONChunkPacket)
  | complete (tid : JSString)
  | error (tid error : JSString)
  | ack (tid : JSString)
  | nack (p : JSONNackPacket)
  deriving DecidableEq

namespace JSONTransportPacket

def tid : JSONTransportPacket → JSString
  | .manifest p => p.tid
  | .chunk p => p.tid
  | .complete tid => tid
  | .error tid _ => tid
  | .ack tid => tid
  | .nack p => p.tid

/-- `packet.type`. -/
def type : JSONTransportPacket → JSString
  | .manifest _ => lit "json:manifest"
  | .chunk _ => lit "json:chunk"
  | .complete _ => lit "json:complete"
  | .error _ _ => lit "json:error"
  | .ack _ => lit "json:ack"
  | .nack _ => lit "json:nack"

end JSONTransportPacket

/-! ## Serialising -/

def JSONChunkRef.json (r : JSONChunkRef) : Json :=
  .obj [(lit "cid", .str r.cid), (lit "path", .str r.path), (lit "encoding", .str r.encoding),
    (lit "size", .ofNat r.size), (lit "chunks", .ofNat r.chunks)]

def JSONNackEntry.json (e : JSONNackEntry) : Json :=
  .obj [(lit "cid", .str e.cid), (lit "missing", .arr (e.missing.map .ofNat))]

def JSONTransportPacket.fields : JSONTransportPacket → List (JSString × Json)
  | .manifest p => [(lit "root", p.root), (lit "refs", .arr (p.refs.map JSONChunkRef.json))]
  | .chunk p =>
    [(lit "cid", .str p.cid), (lit "index", .ofNat p.index), (lit "total", .ofNat p.total),
      (lit "data", .str p.data), (lit "hash", .str p.hash)]
  | .complete _ => []
  | .error _ text => [(lit "error", .str text)]
  | .ack _ => []
  | .nack p =>
    (p.manifest.map fun b => (lit "manifest", Json.bool b)).toList ++
      (p.chunks.map fun es => (lit "chunks", Json.arr (es.map JSONNackEntry.json))).toList ++
      (p.complete.map fun b => (lit "complete", Json.bool b)).toList

def JSONTransportPacket.json (p : JSONTransportPacket) : Json :=
  .obj ((lit "type", .str p.type) :: (lit "tid", .str p.tid) :: p.fields)

/-- `JSON.stringify(packet)`. -/
def JSONTransportPacket.wire (p : JSONTransportPacket) : JSString := p.json.text

/-! ## The shape check -/

def Json.str? : Json → Option JSString
  | .str s => some s
  | _ => none

/-- A field that may be missing, and must be a boolean otherwise. -/
def optBool (j : Option Json) : Option (Option Bool) :=
  match j with
  | none => some none
  | some (.bool b) => some (some b)
  | some _ => none

/-- A string field. -/
def strField (j : Json) (k : JSString) : Option JSString := (j.prop? k).bind Json.str?

/-- A field with a nonnegative integer. -/
def natField (j : Json) (k : JSString) : Option Nat := (j.prop? k).bind Json.nat?

/-- `isJSONChunkRef`. -/
def isJSONChunkRef (ref : Json) : Option JSONChunkRef := do
  let cid ← strField ref (lit "cid")
  let path ← strField ref (lit "path")
  let encoding ← strField ref (lit "encoding")
  let size ← natField ref (lit "size")
  let chunks ← natField ref (lit "chunks")
  if h : 0 < chunks then some ⟨cid, path, encoding, size, chunks, h⟩ else none

/-- `isJSONNackChunkEntry`. -/
def isJSONNackChunkEntry (entry : Json) : Option JSONNackEntry := do
  let cid ← strField entry (lit "cid")
  match entry.prop? (lit "missing") with
  | some (.arr items) => (items.mapM Json.nat?).map (⟨cid, ·⟩)
  | _ => none

/-- `isJSONNackPacketShape`. -/
def isJSONNackPacketShape (tid : JSString) (packet : Json) : Option JSONNackPacket := do
  let manifest ← optBool (packet.prop? (lit "manifest"))
  let complete ← optBool (packet.prop? (lit "complete"))
  match packet.prop? (lit "chunks") with
  | none => some ⟨tid, manifest, none, complete⟩
  | some (.arr entries) => (entries.mapM isJSONNackChunkEntry).map (⟨tid, manifest, some ·, complete⟩)
  | some _ => none

/-- `isJSONTransportPacket`: the packet a document is, or `none` where the
check fails. Unknown fields are ignored. -/
def isJSONTransportPacket (packet : Json) : Option JSONTransportPacket := do
  let type ← strField packet (lit "type")
  let tid ← strField packet (lit "tid")
  if type = lit "json:manifest" then
    let root ← packet.prop? (lit "root")
    match packet.prop? (lit "refs") with
    | some (.arr refs) => (refs.mapM isJSONChunkRef).map (.manifest ⟨tid, root, ·⟩)
    | _ => none
  else if type = lit "json:chunk" then
    let cid ← strField packet (lit "cid")
    let index ← natField packet (lit "index")
    let total ← natField packet (lit "total")
    let data ← strField packet (lit "data")
    let hash ← strField packet (lit "hash")
    if h : index < total then some (.chunk ⟨tid, cid, index, total, data, hash, h⟩) else none
  else if type = lit "json:complete" then some (.complete tid)
  else if type = lit "json:error" then
    (strField packet (lit "error")).map (.error tid)
  else if type = lit "json:ack" then some (.ack tid)
  else if type = lit "json:nack" then (isJSONNackPacketShape tid packet).map .nack
  else none

/-! ## A sent packet passes the check -/

@[simp] theorem prop?_nil (k : JSString) : (Json.obj []).prop? k = none := rfl

theorem prop?_cons (k k' : JSString) (v : Json) (props : List (JSString × Json)) :
    (Json.obj ((k', v) :: props)).prop? k = if k = k' then some v else (Json.obj props).prop? k := by
  by_cases h : k = k'
  · simp [Json.prop?, h]
  · simp [Json.prop?, List.lookup_cons, h, beq_false_of_ne h]

theorem mapM_map_some {α β : Type} (f : β → Option α) (g : α → β) (h : ∀ a, f (g a) = some a)
    (l : List α) : (l.map g).mapM f = some l := by
  induction l with
  | nil => rfl
  | cons a l ih => simp [h, ih]

theorem isJSONChunkRef_json (r : JSONChunkRef) : isJSONChunkRef r.json = some r := by
  obtain ⟨cid, path, encoding, size, chunks, pos⟩ := r
  simp +decide [isJSONChunkRef, JSONChunkRef.json, strField, natField, prop?_cons, Json.str?, pos]

theorem isJSONNackChunkEntry_json (e : JSONNackEntry) : isJSONNackChunkEntry e.json = some e := by
  simp +decide [isJSONNackChunkEntry, JSONNackEntry.json, strField, prop?_cons, Json.str?,
    mapM_map_some Json.nat? Json.ofNat Json.nat?_ofNat]

/-- **A packet survives its own serialisation.** -/
theorem isJSONTransportPacket_json (p : JSONTransportPacket) :
    isJSONTransportPacket p.json = some p := by
  cases p with
  | manifest p =>
    simp +decide [isJSONTransportPacket, JSONTransportPacket.json, JSONTransportPacket.fields,
      JSONTransportPacket.type, JSONTransportPacket.tid, strField, prop?_cons, Json.str?,
      mapM_map_some isJSONChunkRef JSONChunkRef.json isJSONChunkRef_json]
  | chunk p =>
    obtain ⟨tid, cid, index, total, data, hash, lt⟩ := p
    simp +decide [isJSONTransportPacket, JSONTransportPacket.json, JSONTransportPacket.fields,
      JSONTransportPacket.type, JSONTransportPacket.tid, strField, natField, prop?_cons,
      Json.str?, lt]
  | complete tid =>
    simp +decide [isJSONTransportPacket, JSONTransportPacket.json, JSONTransportPacket.fields,
      JSONTransportPacket.type, JSONTransportPacket.tid, strField, prop?_cons, Json.str?]
  | error tid text =>
    simp +decide [isJSONTransportPacket, JSONTransportPacket.json, JSONTransportPacket.fields,
      JSONTransportPacket.type, JSONTransportPacket.tid, strField, prop?_cons, Json.str?]
  | ack tid =>
    simp +decide [isJSONTransportPacket, JSONTransportPacket.json, JSONTransportPacket.fields,
      JSONTransportPacket.type, JSONTransportPacket.tid, strField, prop?_cons, Json.str?]
  | nack p =>
    obtain ⟨tid, manifest, chunks, complete⟩ := p
    cases manifest <;> cases chunks <;> cases complete <;>
      simp +decide [isJSONTransportPacket, isJSONNackPacketShape, JSONTransportPacket.json,
        JSONTransportPacket.fields, JSONTransportPacket.type, JSONTransportPacket.tid, strField,
        prop?_cons, Json.str?, optBool,
        mapM_map_some isJSONNackChunkEntry JSONNackEntry.json isJSONNackChunkEntry_json]

/-- Every document inside the packet is well formed; only a manifest's root can
fail it. -/
def JSONTransportPacket.Wf : JSONTransportPacket → Prop
  | .manifest p => p.root.Wf
  | _ => True

theorem JSONChunkRef.json_wf (r : JSONChunkRef) : r.json.Wf := by
  simp +decide [JSONChunkRef.json, Json.wf_obj]

theorem JSONNackEntry.json_wf (e : JSONNackEntry) : e.json.Wf := by
  simp +decide [JSONNackEntry.json, Json.wf_obj, Json.wf_arr]

theorem JSONTransportPacket.json_wf {p : JSONTransportPacket} (h : p.Wf) : p.json.Wf := by
  rw [json, Json.wf_obj]
  cases p with
  | manifest p =>
    have hr : p.root.Wf := h
    have hrefs : (Json.arr (p.refs.map JSONChunkRef.json)).Wf := by
      simp [Json.wf_arr, JSONChunkRef.json_wf]
    simp +decide [fields, hr, hrefs]
  | chunk p => simp +decide [fields]
  | complete tid => simp +decide [fields]
  | error tid text => simp +decide [fields]
  | ack tid => simp +decide [fields]
  | nack p =>
    have hc : ∀ es : List JSONNackEntry, (Json.arr (es.map JSONNackEntry.json)).Wf := by
      simp [Json.wf_arr, JSONNackEntry.json_wf]
    obtain ⟨tid, manifest, chunks, complete⟩ := p
    cases manifest <;> cases chunks <;> cases complete <;>
      simp +decide [fields, hc]

/-- `JSON.parse` followed by the shape check, as `receive` runs them. -/
def readPacket (packetString : JSString) : Option JSONTransportPacket :=
  (parse packetString).bind isJSONTransportPacket

theorem parse_wire {p : JSONTransportPacket} (h : p.Wf) : parse p.wire = some p.json :=
  parse_text p.json (p.json_wf h)

/-- **What one side serialises the other side reads.** -/
theorem readPacket_wire {p : JSONTransportPacket} (h : p.Wf) : readPacket p.wire = some p := by
  rw [readPacket, parse_wire h, Option.bind_some, isJSONTransportPacket_json]

end LemonModel
