import LemonModel.Text.Bytes
import LemonModel.Transport.Paths

/-!
# The size of a chunk packet

What a chunk packet takes on the wire. `no_limit_is_safe`: for every packet limit there is
a text whose packets, cut by the derived `chunkBytes`, do not stay within it.
-/

namespace LemonModel

open Text

/-- How long the numeral of `n` is. -/
def digits (n : Nat) : Nat := (Decimal.ofNat n).text.length

/-- What a chunk packet takes apart from its data: 77 bytes of keys and marks, the ids, the
index and the number of chunks, and the hash. -/
def envelopeBytes (tid cid : JSString) (index total : Nat) (hash : JSString) : Nat :=
  77 + literalBytes tid + literalBytes cid + digits index + digits total + literalBytes hash

theorem wire_chunk (p : JSONChunkPacket) :
    (JSONTransportPacket.chunk p).wire =
      lit "\x7b\"type\":\"json:chunk\",\"tid\":" ++ (quote p.tid ++ (lit ",\"cid\":" ++
        (quote p.cid ++ (lit ",\"index\":" ++ ((Decimal.ofNat p.index).text ++
        (lit ",\"total\":" ++ ((Decimal.ofNat p.total).text ++ (lit ",\"data\":" ++
        (quote p.data ++ (lit ",\"hash\":" ++ (quote p.hash ++ lit "\x7d"))))))))))) := by
  have type : quote (lit "type") = lit "\"type\"" := by decide
  have chunk : quote (lit "json:chunk") = lit "\"json:chunk\"" := by decide
  have tid : quote (lit "tid") = lit "\"tid\"" := by decide
  have cid : quote (lit "cid") = lit "\"cid\"" := by decide
  have index : quote (lit "index") = lit "\"index\"" := by decide
  have total : quote (lit "total") = lit "\"total\"" := by decide
  have data : quote (lit "data") = lit "\"data\"" := by decide
  have hash : quote (lit "hash") = lit "\"hash\"" := by decide
  simp only [JSONTransportPacket.wire, JSONTransportPacket.json, JSONTransportPacket.fields,
    JSONTransportPacket.type, JSONTransportPacket.tid, Json.text, propsText, Json.ofNat, type,
    chunk, tid, cid, index, total, data, hash, List.append_assoc, List.cons_append,
    List.nil_append]
  rfl

theorem bytes_chunk (p : JSONChunkPacket) :
    byteLength (JSONTransportPacket.chunk p).wire =
      envelopeBytes p.tid p.cid p.index p.total p.hash + literalBytes p.data := by
  have ascii (s : String) (h : (lit s).all (· < 0x80) = true) : Ascii (lit s) := fun u mem => by
    simpa using List.all_eq_true.mp h u mem
  rw [wire_chunk, byteLength_ascii_append (ascii _ (by decide)), byteLength_quote_append,
    byteLength_ascii_append (ascii _ (by decide)), byteLength_quote_append,
    byteLength_ascii_append (ascii _ (by decide)), byteLength_ascii_append (Decimal.text_ascii _),
    byteLength_ascii_append (ascii _ (by decide)), byteLength_ascii_append (Decimal.text_ascii _),
    byteLength_ascii_append (ascii _ (by decide)), byteLength_quote_append,
    byteLength_ascii_append (ascii _ (by decide)), byteLength_quote_append,
    byteLength_ascii (ascii _ (by decide))]
  have fixed : (lit "\x7b\"type\":\"json:chunk\",\"tid\":").length + (lit ",\"cid\":").length +
      (lit ",\"index\":").length + (lit ",\"total\":").length + (lit ",\"data\":").length +
      (lit ",\"hash\":").length + (lit "\x7d").length = 69 := by decide
  unfold envelopeBytes digits
  omega

/-- `{ data: { text } }`. -/
def textMessage (text : JSString) : JSValue :=
  .obj [(lit "data", .obj [(lit "text", .str text)] none)] none

theorem textMessage_wf (text : JSString) : (textMessage text).Wf := by
  simp [textMessage, JSValue.Wf, ValuePropsWf]

/-- The first ids of the default provider. -/
def firstIds : Ids := ⟨lit "json-1", fun k => lit "chunk-" ++ natText (k + 1)⟩

def derivedOptions (chunkBytes : Int) : SplitOptions := { SplitOptions.default with chunkBytes }

def packetBytes (chunkBytes : Int) (text : JSString) : Option (List Nat) :=
  (splitJSON (textMessage text) (derivedOptions chunkBytes) firstIds).map fun split =>
    split.chunks.map fun chunk => byteLength (JSONTransportPacket.chunk chunk).wire

/-- The envelope alone is longer than the least packet limits, and text that has to be
escaped does not fit either. -/
theorem derived_chunks_exceed_the_limit :
    calculateJSONTransportChunkBytes 65 (resolveEnvelopeReserveBytesByPacketLimit 65) = some 1 ∧
      packetBytes 1 (List.replicate 2 97) = some [100, 100] ∧
      calculateJSONTransportChunkBytes 256 (resolveEnvelopeReserveBytesByPacketLimit 256) =
        some 128 ∧
      packetBytes 128 (List.replicate 129 34) = some [354, 100] := by
  decide +kernel

/-! ## No limit is safe -/

theorem chars_zeros (n : Nat) : chars (List.replicate n 0) = List.replicate n [0] := by
  induction n with
  | zero => rfl
  | succ n ih =>
    cases n with
    | zero => rfl
    | succ n =>
      have high : isHigh 0 = false := by decide
      rw [List.replicate_succ, List.replicate_succ, chars, high, Bool.false_and,
        if_neg Bool.false_ne_true, ← List.replicate_succ, ih]
      rfl

theorem splitLoop_zeros {chunkBytes : Int} (rest parts : List JSString) {m n : Nat}
    (room : (n + m : Int) ≤ chunkBytes) :
    splitLoop chunkBytes (List.replicate m [0] ++ rest) parts (List.replicate n 0) n =
      splitLoop chunkBytes rest parts (List.replicate (n + m) 0) (n + m) := by
  induction m generalizing n with
  | zero => rfl
  | succ m ih =>
    have one : byteLength [0] = 1 := by decide
    have longer : List.replicate n (0 : UInt16) ++ [0] = List.replicate (n + 1) 0 :=
      List.replicate_succ'.symm
    rw [List.replicate_succ, List.cons_append, splitLoop, one, if_neg (by omega),
      if_neg (by omega), longer, ih (by omega), Nat.add_right_comm, Nat.add_assoc]

theorem splitStringByBytes_zeros {n : Nat} (pos : 0 < n) :
    splitStringByBytes (List.replicate (n + 1) 0) n = some [List.replicate n 0, [0]] := by
  have one : byteLength [0] = 1 := by decide
  have fill : splitLoop n (List.replicate n [0] ++ [[0]]) [] (List.replicate 0 0) 0 = _ :=
    splitLoop_zeros [[0]] [] (by omega)
  have full : List.replicate n (0 : UInt16) ≠ [] := by simp; omega
  rw [splitStringByBytes, if_neg (by omega), chars_zeros, List.replicate_succ']
  refine fill.trans ?_
  rw [Nat.zero_add, splitLoop, one, if_neg (by omega), if_pos ⟨full, by omega⟩]
  rfl

theorem literalBytes_zeros (n : Nat) : literalBytes (List.replicate n 0) = 6 * n := by
  have zero : escapedUnit 0 = 5 := by decide
  have bytes : unitBytes 0 = 1 := by decide
  have high : isHigh 0 = false := by decide
  unfold literalBytes
  induction n with
  | zero => rfl
  | succ n ih =>
    have step : escapedBytes (0 :: List.replicate n 0) =
        escapedUnit 0 + escapedBytes (List.replicate n 0) := by
      cases n with
      | zero => rfl
      | succ n =>
        rw [List.replicate_succ, escapedBytes, high, Bool.false_and, if_neg Bool.false_ne_true]
    rw [List.replicate_succ, byteLength_cons high, step, bytes, zero]
    omega

/-- **No limit is safe.** For every packet limit there is a text of which a packet does not
fit, whatever the ids. -/
theorem no_limit_is_safe {maxPacketBytes chunkBytes : Int} (ids : Ids)
    (derived : calculateJSONTransportChunkBytes maxPacketBytes
      (resolveEnvelopeReserveBytesByPacketLimit maxPacketBytes) = some chunkBytes) :
    ∃ text split, splitJSON (textMessage text) (derivedOptions chunkBytes) ids = some split ∧
      ∃ chunk ∈ split.chunks,
        maxPacketBytes < byteLength (JSONTransportPacket.chunk chunk).wire := by
  unfold calculateJSONTransportChunkBytes resolveEnvelopeReserveBytesByPacketLimit
    DEFAULT_ENVELOPE_RESERVE_BYTES at derived
  split at derived
  · cases derived
  · have chunk := Option.some.inj derived
    obtain ⟨n, rfl⟩ : ∃ n : Nat, chunkBytes = n := Int.eq_ofNat_of_zero_le (by omega)
    have pos : 0 < n := by omega
    have spots : (textMessage (List.replicate (n + 1) 0)).spots (derivedOptions n) [] =
        [([lit "data", lit "text"], List.replicate (n + 1) 0)] := by
      have size : byteLength (List.replicate (n + 1) 0) = n + 1 := by
        rw [byteLength_ascii fun u mem => by rw [List.eq_of_mem_replicate mem]; decide,
          List.length_replicate]
      have path : [] ++ unit '/' :: escapeJSONPointer (lit "data") ++
          unit '/' :: escapeJSONPointer (lit "text") = lit "/data/text" := by decide
      have preferred : matchesPreferredSplitPath (lit "/data/text")
          (derivedOptions n).preferredSplitPaths = true := by
        show matchesPreferredSplitPath (lit "/data/text") DEFAULT_PREFERRED_SPLIT_PATHS = true
        decide
      have more : ((n + 1 : Nat) : Int) >
          min (derivedOptions n).largeValueBytes (derivedOptions n).chunkBytes := by
        show ((n + 1 : Nat) : Int) > min DEFAULT_LARGE_VALUE_BYTES n
        omega
      have picked : shouldSplit (lit "/data/text") (List.replicate (n + 1) 0) (n + 1)
          (derivedOptions n) = true := by
        rw [shouldSplit, preferred, decide_eq_true more, Bool.and_true, Bool.or_true,
          Bool.true_or]
      simp only [textMessage, JSValue.spots, spotsProps, path, size, picked, if_true]
      rfl
    have fits : (textMessage (List.replicate (n + 1) 0)).Fits (derivedOptions n) [] := by
      intro spot mem char hc
      rw [spots, List.mem_singleton] at mem
      rw [mem, chars_zeros] at hc
      rw [List.eq_of_mem_replicate hc]
      show (1 : Int) ≤ n
      omega
    obtain ⟨split, made⟩ := splitJSON_fits (Int.natCast_pos.mpr pos) fits ids
    obtain ⟨pieces, doc, -, of, cut, parts⟩ := splitJSON_madeOf (textMessage_wf _) rfl made
    rw [spots] at cut
    obtain ⟨p, rfl, spot⟩ := List.map_eq_singleton_iff.mp cut
    have value : p.value = List.replicate (n + 1) 0 := congrArg Prod.snd spot
    have two := parts p (List.mem_singleton_self p)
    rw [value] at two
    obtain two := Option.some.inj (two.symm.trans (splitStringByBytes_zeros pos))
    have first : 0 < p.parts.length := by rw [two]; exact Nat.zero_lt_two
    have zeros : p.parts[0] = List.replicate n 0 := by simp [two]
    refine ⟨_, split, made, p.chunk split.tid 0 first,
      (of.chunks _).mpr ⟨p, List.mem_singleton_self p, 0, first, rfl⟩, ?_⟩
    rw [bytes_chunk]
    simp only [Piece.chunk, zeros, literalBytes_zeros, envelopeBytes]
    omega

theorem no_limit_is_safe_default :
    ∃ text split, splitJSON (textMessage text) (derivedOptions 128) firstIds = some split ∧
      ∃ chunk ∈ split.chunks, (256 : Int) < byteLength (JSONTransportPacket.chunk chunk).wire :=
  no_limit_is_safe firstIds (by decide)

end LemonModel
