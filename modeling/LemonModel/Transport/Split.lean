import LemonModel.Transport.Pointer

/-!
# Splitting a message

`splitJSON` and what it is made of: which string leaves are cut out of a value,
how a string is cut into chunks, and the packets that carry the result.
-/

namespace LemonModel

open Text

/-! ## Options -/

/-- The options `splitJSON` reads. A fractional limit acts as its floor. -/
structure SplitOptions where
  largeValueBytes : Int
  chunkBytes : Int
  preferredSplitPaths : List JSString
  split : Option (JSString → JSString → Nat → Bool)

def DEFAULT_LARGE_VALUE_BYTES : Int := 16 * 1024
def DEFAULT_CHUNK_BYTES : Int := 16 * 1024
def DEFAULT_ENVELOPE_RESERVE_BYTES : Int := 1024

def DEFAULT_PREFERRED_SPLIT_PATHS : List JSString :=
  [lit "/data/text", lit "/data/content", lit "/data/output", lit "/data/inlineData",
    lit "/data/parts/*/text", lit "/data/parts/*/inlineData"]

/-- `asJSONTransportOptions({})`. -/
def SplitOptions.default : SplitOptions :=
  ⟨DEFAULT_LARGE_VALUE_BYTES, DEFAULT_CHUNK_BYTES, DEFAULT_PREFERRED_SPLIT_PATHS, none⟩

/-- The ids one `splitJSON` call draws from its identity provider: the
transport id, and the chunk ids in the order they are asked for. -/
structure Ids where
  tid : JSString
  cid : Nat → JSString

/-! ## Hashing -/

def base36 : Nat → Nat → JSString → JSString
  | 0, _, acc => acc
  | fuel + 1, n, acc =>
    if n / 36 = 0 then digitUnit (n % 36) :: acc
    else base36 fuel (n / 36) (digitUnit (n % 36) :: acc)

/-- FNV-1a over the code units, in base 36. -/
def hashString (value : JSString) : JSString :=
  let hash := value.foldl (fun (hash : UInt32) u => (hash ^^^ u.toUInt32) * 0x01000193) 0x811c9dc5
  (base36 7 hash.toNat []).take 8

/-! ## Cutting a string -/

/-- The loop of `splitStringByBytes` over the characters left; `none` where it
throws. -/
def splitLoop (chunkBytes : Int) :
    List JSString → List JSString → JSString → Nat → Option (List JSString)
  | [], parts, buffer, _ => some (if buffer ≠ [] ∨ parts = [] then parts ++ [buffer] else parts)
  | char :: rest, parts, buffer, bufferBytes =>
    let charBytes := byteLength char
    if (charBytes : Int) > chunkBytes then none
    else if buffer ≠ [] ∧ (bufferBytes + charBytes : Int) > chunkBytes then
      splitLoop chunkBytes rest (parts ++ [buffer]) char charBytes
    else splitLoop chunkBytes rest parts (buffer ++ char) (bufferBytes + charBytes)

def splitStringByBytes (value : JSString) (chunkBytes : Int) : Option (List JSString) :=
  if chunkBytes ≤ 0 then none else splitLoop chunkBytes (chars value) [] [] 0

theorem splitLoop_flatten {chunkBytes : Int} {cs parts : List JSString} {buffer : JSString}
    {bytes : Nat} {out : List JSString} (h : splitLoop chunkBytes cs parts buffer bytes = some out) :
    out.flatten = parts.flatten ++ buffer ++ cs.flatten ∧ out ≠ [] := by
  induction cs generalizing parts buffer bytes with
  | nil =>
    simp only [splitLoop, Option.some.injEq] at h
    subst h
    split
    · simp
    · rename_i hb
      rw [not_or, not_not] at hb
      simp [hb.1, hb.2]
  | cons c cs ih =>
    simp only [splitLoop] at h
    split at h
    · cases h
    · split at h
      · simpa using ih h
      · simpa using ih h

theorem splitStringByBytes_flatten {value : JSString} {chunkBytes : Int} {parts : List JSString}
    (h : splitStringByBytes value chunkBytes = some parts) : parts.flatten = value := by
  unfold splitStringByBytes at h
  split at h
  · cases h
  · simpa using (splitLoop_flatten h).1

theorem splitStringByBytes_ne_nil {value : JSString} {chunkBytes : Int} {parts : List JSString}
    (h : splitStringByBytes value chunkBytes = some parts) : parts ≠ [] := by
  unfold splitStringByBytes at h
  split at h
  · cases h
  · exact (splitLoop_flatten h).2

/-! ## Choosing the leaves to cut -/

def matchesPreferredSplitPath (path : JSString) (patterns : List JSString) : Bool :=
  patterns.any fun pattern =>
    (rawSegments path).length == (rawSegments pattern).length &&
      ((rawSegments pattern).zip (rawSegments path)).all fun p => p.1 == lit "*" || p.1 == p.2

def shouldSplit (path value : JSString) (size : Nat) (options : SplitOptions) : Bool :=
  (match options.split with
    | some split => split path value size
    | none => false) ||
  (matchesPreferredSplitPath path options.preferredSplitPaths &&
    decide ((size : Int) > min options.largeValueBytes options.chunkBytes)) ||
  decide ((size : Int) > options.largeValueBytes)

/-- The arrays `cloneAndSplit` pushes to. -/
structure SplitOutput where
  refs : List JSONChunkRef
  chunks : List JSONChunkPacket

/-- The marker left where a string was cut out. -/
def marker (cid : JSString) : JSValue := .obj [(lit "$jsonTransportRef", .str cid)] none

/-- The chunks of one string; their transport id is filled in at the end. -/
def chunkPackets (cid : JSString) (parts : List JSString) : List JSONChunkPacket :=
  parts.mapFinIdx fun index data h => ⟨[], cid, index, parts.length, data, hashString data, h⟩

/-- Assigning to `__proto__` sets the prototype: no own property appears. -/
def PROTO : JSString := lit "__proto__"

mutual

/-- `cloneAndSplit`; `none` where it throws. The k-th ref takes the k-th chunk
id. -/
def cloneAndSplit (options : SplitOptions) (cid : Nat → JSString) (path : JSString)
    (out : SplitOutput) : JSValue → Option (JSValue × SplitOutput)
  | .str value =>
    if shouldSplit path value (byteLength value) options then
      match h : splitStringByBytes value options.chunkBytes with
      | none => none
      | some parts =>
        let id := cid out.refs.length
        some (marker id,
          ⟨out.refs ++ [⟨id, path, lit "utf8", byteLength value, parts.length,
              List.length_pos_iff.mpr (splitStringByBytes_ne_nil h)⟩],
            out.chunks ++ chunkPackets id parts⟩)
    else some (.str value, out)
  | .arr items => do
    let (items, out) ← cloneItems options cid path 0 out items
    some (.arr items, out)
  | .obj props _ => do
    let (props, out) ← cloneProps options cid path out props
    some (.obj props none, out)
  | value => some (value, out)

/-- `value.map((item, index) => …)` from `index` on. -/
def cloneItems (options : SplitOptions) (cid : Nat → JSString) (path : JSString) (index : Nat)
    (out : SplitOutput) : List JSValue → Option (List JSValue × SplitOutput)
  | [] => some ([], out)
  | item :: rest => do
    let (item, out) ← cloneAndSplit options cid (path ++ unit '/' :: natText index) out item
    let (rest, out) ← cloneItems options cid path (index + 1) out rest
    some (item :: rest, out)

/-- The loop over `Object.entries(value)`. -/
def cloneProps (options : SplitOptions) (cid : Nat → JSString) (path : JSString)
    (out : SplitOutput) : List (JSString × JSValue) → Option (List (JSString × JSValue) × SplitOutput)
  | [] => some ([], out)
  | (key, item) :: rest => do
    let (item, out) ←
      cloneAndSplit options cid (path ++ unit '/' :: escapeJSONPointer key) out item
    let (rest, out) ← cloneProps options cid path out rest
    some (if key = PROTO then rest else (key, item) :: rest, out)

end

/-! ## The packets of a message -/

/-- `JSONSplitResult`: the packets of one message. -/
structure JSONSplitResult where
  tid : JSString
  manifest : JSONManifestPacket
  chunks : List JSONChunkPacket

namespace JSONSplitResult

/-- The packets in the order they are sent. -/
def packets (split : JSONSplitResult) : List JSONTransportPacket :=
  .manifest split.manifest :: (split.chunks.map .chunk ++ [.complete split.tid])

end JSONSplitResult

/-- `splitJSON`; `none` where it throws. `data` is an object or an array, so its
clone always has an image. -/
def splitJSON (data : JSValue) (options : SplitOptions) (ids : Ids) : Option JSONSplitResult := do
  let (root, out) ← cloneAndSplit options ids.cid [] ⟨[], []⟩ data
  some ⟨ids.tid, ⟨ids.tid, root.image.getD .null, out.refs⟩,
    out.chunks.map fun chunk => { chunk with tid := ids.tid }⟩

/-- The reserve `calculateJSONTransportChunkBytes` takes by default. -/
def resolveEnvelopeReserveBytesByPacketLimit (maxPacketBytes : Int) : Int :=
  min DEFAULT_ENVELOPE_RESERVE_BYTES (max 64 (maxPacketBytes / 2))

/-- `none` where it throws. -/
def calculateJSONTransportChunkBytes (maxPacketBytes envelopeReserveBytes : Int) : Option Int :=
  if maxPacketBytes - envelopeReserveBytes ≤ 0 then none
  else some (maxPacketBytes - envelopeReserveBytes)

end LemonModel
