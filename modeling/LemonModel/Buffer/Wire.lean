import LemonModel.Base.InOrder
import LemonModel.Transport.Pointer

/-!
# Stream events on the wire

The packets of `createGenAIStreamNetworkConsumer` and its receiver. A stream event is
a document here. A flush event may leave the data of its chunks out, which is then cut
from the data of the event again (`restore_compact`).
-/

namespace LemonModel

open Text

/-! ## Numbers and strings -/

/-- An index of `substring`: `NaN` aside, it is cut to an integer of the string. -/
def stringIndex (s : JSString) (q : ℚ) : Nat := min ⌊q⌋.toNat s.length

/-- `s.substring(a, b)`. -/
def substring (s : JSString) (a b : ℚ) : JSString :=
  let i := min (stringIndex s a) (stringIndex s b)
  let j := max (stringIndex s a) (stringIndex s b)
  (s.drop i).take (j - i)

/-! ## Compaction -/

/-- `chunk.chars` of a chunk event; it is a number where it is there. -/
def chunkChars (chunk : Json) : Option ℚ :=
  match chunk.prop? (lit "chars") with
  | some (.num d) => some d.value
  | _ => none

/-- `chunk.chars ?? chunk.data.length`. -/
def chunkSize (chunk : Json) : ℚ :=
  (chunkChars chunk).getD ((strField chunk (lit "data")).getD []).length

/-- The loop of `canCompactFlushEvent`. -/
def canCompactChunks (data : JSString) (offset : ℚ) : List Json → Bool
  | [] => offset = data.length
  | chunk :: rest =>
    strField chunk (lit "data") = some (substring data offset (offset + chunkSize chunk)) ∧
      canCompactChunks data (offset + chunkSize chunk) rest

def eventChunks (event : Json) : Option (List Json) :=
  match event.prop? (lit "chunks") with
  | some (.arr chunks) => some chunks
  | _ => none

def canCompactFlushEvent (event : Json) : Bool :=
  match strField event (lit "data"), eventChunks event with
  | some data, some chunks => canCompactChunks data 0 chunks
  | _, _ => false

/-- `{ ...j, [k]: v }`. -/
def withProp (j : Json) (k : JSString) (v : Json) : Json :=
  match j with
  | .obj props => .obj (setProp props k v)
  | _ => .obj [(k, v)]

/-- `const { data: _data, ...rest } = chunk`. -/
def withoutData (chunk : Json) : Json :=
  match chunk with
  | .obj props => .obj (props.filter fun p => p.1 ≠ lit "data")
  | _ => .obj []

def isFlush (event : Json) : Bool := strField event (lit "type") = some (lit "flush")

/-- The event, and whether `compact` goes with it. -/
def compactStreamEvent (event : Json) : Json × Bool :=
  if isFlush event ∧ canCompactFlushEvent event then
    (withProp event (lit "chunks") (.arr (((eventChunks event).getD []).map withoutData)), true)
  else (event, false)

/-- The loop of `restoreStreamEvent`. -/
def restoreChunks (data : JSString) (offset : ℚ) : List Json → List Json
  | [] => []
  | chunk :: rest =>
    let chars := (chunkChars chunk).getD 0
    withProp chunk (lit "data") (.str (substring data offset (offset + chars))) ::
      restoreChunks data (offset + chars) rest

/-- `restoreStreamEvent`, with whether the packet has the `compact` of a flush. -/
def restoreStreamEvent (event : Json) (compact : Bool) : Json :=
  if isFlush event ∧ compact then
    withProp event (lit "chunks") (.arr (restoreChunks
      ((strField event (lit "data")).getD []) 0 ((eventChunks event).getD [])))
  else event

/-! ## What compaction keeps -/

theorem lookup_filter_ne {props : List (JSString × Json)} {k k' : JSString} (h : k' ≠ k) :
    (props.filter fun p => p.1 ≠ k).lookup k' = props.lookup k' := by
  induction props with
  | nil => rfl
  | cons p ps ih =>
    obtain ⟨key, v⟩ := p
    by_cases hk : key = k
    · subst hk
      rw [List.filter_cons_of_neg (by simp), ih, List.lookup_cons, beq_false_of_ne h]
    · rw [List.filter_cons_of_pos (by simpa using hk), List.lookup_cons, List.lookup_cons, ih]

theorem prop?_withProp (j : Json) (k k' : JSString) (v : Json) :
    (withProp j k v).prop? k' = if k' = k then some v else j.prop? k' := by
  cases j with
  | obj props => exact lookup_setProp props k k' v
  | _ =>
    by_cases h : k' = k
    · simp [withProp, Json.prop?, h]
    · simp [withProp, Json.prop?, List.lookup_cons, h, beq_false_of_ne h]

theorem prop?_withoutData (chunk : Json) {k : JSString} (h : k ≠ lit "data") :
    (withoutData chunk).prop? k = chunk.prop? k := by
  cases chunk with
  | obj props => exact lookup_filter_ne h
  | _ => rfl

/-- The same members, in whatever order. -/
def SameProps (a b : Json) : Prop :=
  a = b ∨ (∃ ps qs, a = .obj ps ∧ b = .obj qs) ∧ ∀ k, a.prop? k = b.prop? k

/-- The same event, up to the order of the members of a chunk. -/
def SameEvent (a b : Json) : Prop :=
  a = b ∨ (∃ ps qs, a = .obj ps ∧ b = .obj qs) ∧
    (∀ k, k ≠ lit "chunks" → a.prop? k = b.prop? k) ∧
      ∃ xs ys, eventChunks a = some xs ∧ eventChunks b = some ys ∧ List.Forall₂ SameProps xs ys

/-- A chunk that does not tell its length is empty. -/
def CharsGiven (event : Json) : Prop :=
  ∀ chunk ∈ (eventChunks event).getD [], chunkChars chunk = none →
    strField chunk (lit "data") = some []

theorem strField_eq {j : Json} {k s : JSString} (h : strField j k = some s) :
    j.prop? k = some (.str s) := by
  unfold strField at h
  obtain ⟨v, hv, hs⟩ := Option.bind_eq_some_iff.mp h
  cases v with
  | str t =>
    obtain rfl := Option.some.inj hs
    exact hv
  | _ => cases hs

theorem chunkChars_withoutData (chunk : Json) : chunkChars (withoutData chunk) = chunkChars chunk := by
  unfold chunkChars
  rw [prop?_withoutData chunk (by decide)]

theorem restoreChunks_same {data : JSString} {offset : ℚ} {chunks : List Json}
    (compacts : canCompactChunks data offset chunks = true)
    (given : ∀ chunk ∈ chunks, chunkChars chunk = none → strField chunk (lit "data") = some []) :
    List.Forall₂ SameProps (restoreChunks data offset (chunks.map withoutData)) chunks := by
  induction chunks generalizing offset with
  | nil => exact .nil
  | cons chunk rest ih =>
    obtain ⟨cut, compacts⟩ := of_decide_eq_true compacts
    have size : (chunkChars (withoutData chunk)).getD 0 = chunkSize chunk := by
      rw [chunkChars_withoutData, chunkSize]
      cases hc : chunkChars chunk with
      | some c => rfl
      | none =>
        rw [given chunk (List.mem_cons_self ..) hc]
        rfl
    rw [List.map_cons, restoreChunks]
    simp only [size]
    refine .cons (.inr ⟨?_, fun k => ?_⟩) (ih compacts fun c hc => given c (List.mem_cons_of_mem _ hc))
    · cases chunk with
      | obj props => exact ⟨_, _, rfl, rfl⟩
      | _ => cases cut
    · rw [prop?_withProp]
      split
      · rename_i hk
        rw [hk, strField_eq cut]
      · rename_i hk
        exact prop?_withoutData chunk hk

theorem eventChunks_withProp (j : Json) (xs : List Json) :
    eventChunks (withProp j (lit "chunks") (.arr xs)) = some xs := by
  rw [eventChunks, prop?_withProp, if_pos rfl]

/-- Nothing was left out. -/
theorem restore_whole {event : Json} (h : ¬ (isFlush event ∧ canCompactFlushEvent event)) :
    restoreStreamEvent (compactStreamEvent event).1 (compactStreamEvent event).2 = event := by
  rw [compactStreamEvent, if_neg h, restoreStreamEvent, if_neg (by simp)]

/-- The chunks of a flush are cut from its data again. -/
theorem restore_cut {event : Json} (flush : isFlush event = true)
    (compacts : canCompactFlushEvent event = true) :
    ∃ props data chunks, event = .obj props ∧ eventChunks event = some chunks ∧
      canCompactChunks data 0 chunks = true ∧
      restoreStreamEvent (compactStreamEvent event).1 (compactStreamEvent event).2 =
        withProp (withProp event (lit "chunks") (.arr (chunks.map withoutData))) (lit "chunks")
          (.arr (restoreChunks data 0 (chunks.map withoutData))) := by
  have both : isFlush event ∧ canCompactFlushEvent event := ⟨flush, compacts⟩
  unfold canCompactFlushEvent at compacts
  split at compacts
  · rename_i data chunks hdata hchunks
    have object : ∃ props, event = .obj props := by
      cases event with
      | obj props => exact ⟨props, rfl⟩
      | _ => cases hdata
    obtain ⟨props, object⟩ := object
    have kept (k : JSString) (hk : k ≠ lit "chunks") (v : Json) :
        strField (withProp event (lit "chunks") v) k = strField event k := by
      rw [strField, prop?_withProp, if_neg hk, strField]
    have flush' (v : Json) : isFlush (withProp event (lit "chunks") v) = true := by
      rw [isFlush, kept _ (by decide)]
      exact flush
    refine ⟨props, data, chunks, object, hchunks, compacts, ?_⟩
    rw [compactStreamEvent, if_pos both, hchunks, Option.getD_some, restoreStreamEvent,
      if_pos ⟨flush' _, rfl⟩, kept _ (by decide), hdata, eventChunks_withProp]
    rfl
  · cases compacts

/-- **Compaction is restored** where every chunk that has data tells its length. -/
theorem restore_compact {event : Json} (given : CharsGiven event) :
    SameEvent (restoreStreamEvent (compactStreamEvent event).1 (compactStreamEvent event).2)
      event := by
  by_cases h : isFlush event ∧ canCompactFlushEvent event
  · obtain ⟨props, data, chunks, object, hchunks, compacts, restored⟩ := restore_cut h.1 h.2
    rw [CharsGiven, hchunks] at given
    rw [restored]
    subst object
    refine .inr ⟨⟨_, _, rfl, rfl⟩, fun k hk => ?_, _, _, eventChunks_withProp _ _, hchunks,
      restoreChunks_same compacts given⟩
    rw [prop?_withProp, if_neg hk, prop?_withProp, if_neg hk]
  · rw [restore_whole h]
    exact .inl rfl

/-! ## Packets -/

structure GenAIStreamNetworkOptions where
  streamId : Option JSString
  compactFlush : Bool

structure GenAIStreamNetworkPacket where
  sid : Option JSString
  seq : Nat
  sentAt : Nat
  event : Json
  compact : Bool
  deriving DecidableEq

def GenAIStreamNetworkPacket.json (p : GenAIStreamNetworkPacket) : Json :=
  .obj ((lit "type", .str (lit "genai:stream")) ::
    ((p.sid.map fun sid => (lit "sid", Json.str sid)).toList ++
      (lit "seq", .ofNat p.seq) :: (lit "sentAt", .ofNat p.sentAt) :: (lit "event", p.event) ::
        if p.compact then
          [(lit "compact", .obj [(lit "flushChunksData", .str (lit "fromFlushData"))])]
        else []))

/-- `packet.compact?.flushChunksData === 'fromFlushData'`. -/
def hasCompact (packet : Json) : Bool :=
  match packet.prop? (lit "compact") with
  | some compact => strField compact (lit "flushChunksData") = some (lit "fromFlushData")
  | none => false

/-- `restoreStreamEvent` of a packet. -/
def restorePacket (packet : Json) : Json :=
  restoreStreamEvent ((packet.prop? (lit "event")).getD .null) (hasCompact packet)

/-! ## The sender -/

/-- How a call of the consumer ends: `network.ready()` rejects, `transport.send`
throws, or the packet is sent. -/
inductive SendOutcome where
  | unready
  | fails
  | sends
  deriving DecidableEq

structure StreamCall where
  event : Json
  sentAt : Nat
  outcome : SendOutcome

/-- The packet of a call. -/
def StreamCall.packet (options : GenAIStreamNetworkOptions) (call : StreamCall) (seq : Nat) :
    GenAIStreamNetworkPacket :=
  let compacted :=
    if options.compactFlush then compactStreamEvent call.event else (call.event, false)
  ⟨options.streamId, seq, call.sentAt, compacted.1, compacted.2⟩

/-- The consumer: the next `seq`, and the packets that were sent. -/
structure GenAIStreamNetworkConsumer where
  seq : Nat
  packets : List GenAIStreamNetworkPacket

/-- `consumer(event)`. The packet has its `seq` before `send` is called. -/
def GenAIStreamNetworkConsumer.call (options : GenAIStreamNetworkOptions)
    (s : GenAIStreamNetworkConsumer) (call : StreamCall) : GenAIStreamNetworkConsumer :=
  match call.outcome with
  | .unready => s
  | .fails => { s with seq := s.seq + 1 }
  | .sends => ⟨s.seq + 1, s.packets ++ [call.packet options s.seq]⟩

/-- The packets of a list of calls. -/
def sentPackets (options : GenAIStreamNetworkOptions) (calls : List StreamCall) :
    List GenAIStreamNetworkPacket :=
  (calls.foldl (GenAIStreamNetworkConsumer.call options) ⟨0, []⟩).packets

/-! ## The receiver -/

/-- The number of a packet that passes the filters of the listener. -/
def streamSeq (options : GenAIStreamNetworkOptions) (packet : Json) : Option Nat :=
  if strField packet (lit "type") ≠ some (lit "genai:stream") then none
  else if (options.streamId.any (· ≠ [])) ∧ strField packet (lit "sid") ≠ options.streamId then none
  else natField packet (lit "seq")

/-- The listener of a receiver with `reorder`, and a consumer that throws on some of its calls.
A packet whose `seq` is no natural number is never next. -/
def acceptStream (options : GenAIStreamNetworkOptions) (throws : Nat → Bool) (r : InOrder Json)
    (packet : Json) : InOrder Json :=
  match streamSeq options packet with
  | none => r
  | some seq => r.accept throws seq packet

/-- What the consumer of the receiver is called with. -/
def deliveredEvents (options : GenAIStreamNetworkOptions) (throws : Nat → Bool)
    (packets : List Json) : List Json :=
  (packets.foldl (acceptStream options throws) InOrder.start).out.map restorePacket

end LemonModel
