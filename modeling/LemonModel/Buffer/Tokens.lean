import LemonModel.Buffer.Sequence
import LemonModel.Buffer.Terminate

/-!
# Text across the network

The whole way of a text: a buffer makes stream events of it, the network consumer sends
them, the packets come in any order, and the consumer of the receiver is a legacy one
(`asStreamConsumer`) that is told tokens, and `null` at the end. `text_crosses_the_network`
is about any use of the buffer, `mock_stream_is_heard_whole` about `runMockGenAIStream`.
-/

namespace LemonModel

open Text

/-! ## Tokens -/

/-- What `asStreamConsumer` tells its consumer of an event; `none` is `null`. -/
def asStreamConsumer (event : Json) : Option (Option JSString) :=
  match strField event (lit "type") with
  | some type =>
    if type = lit "flush" ∨ type = lit "chunk" then (strField event (lit "data")).map some
    else if type = lit "eof" then some none
    else none
  | none => none

/-- The text of the tokens. -/
def tokenText (tokens : List (Option JSString)) : JSString := (tokens.filterMap id).flatten

theorem tokenText_append (a b : List (Option JSString)) :
    tokenText (a ++ b) = tokenText a ++ tokenText b := by
  rw [tokenText, List.filterMap_append, List.flatten_append]
  rfl

theorem strField_withChunks (event v : Json) {k : JSString} (h : k ≠ lit "chunks") :
    strField (withProp event (lit "chunks") v) k = strField event k := by
  rw [strField, prop?_withProp, if_neg h]
  rfl

/-- What leaves data out of chunks, and what puts it back, leaves the rest as it is. -/
theorem strField_restored (options : GenAIStreamNetworkOptions) (call : StreamCall) {k : JSString}
    (h : k ≠ lit "chunks") : strField (call.restored options) k = strField call.event k := by
  have compacted : strField (call.packet options 0).event k = strField call.event k := by
    unfold StreamCall.packet compactStreamEvent
    dsimp only
    split
    · split
      · exact strField_withChunks _ _ h
      · rfl
    · rfl
  unfold StreamCall.restored restoreStreamEvent
  split
  · rw [strField_withChunks _ _ h, compacted]
  · exact compacted

theorem asStreamConsumer_restored (options : GenAIStreamNetworkOptions) (call : StreamCall) :
    asStreamConsumer (call.restored options) = asStreamConsumer call.event := by
  unfold asStreamConsumer
  rw [strField_restored options call (by decide), strField_restored options call (by decide)]

/-! ## The documents of a buffer -/

/-- What a consumer is told of an emission. -/
def Emission.token : Emission → Option (Option JSString)
  | .flush event => some (some event.data)
  | .eof _ _ => some none
  | _ => none

/-- The event as a document, as far as a token is made of it. What a caller pushes is a
`start` or a `progress` event. -/
def Emission.Documents : Emission → Json → Prop
  | .start _, event => strField event (lit "type") = some (lit "start")
  | .flush f, event => strField event (lit "type") = some (lit "flush") ∧
    strField event (lit "data") = some f.data
  | .progress _, event => strField event (lit "type") = some (lit "progress")
  | .eof _ _, event => strField event (lit "type") = some (lit "eof")
  | .error _, event => strField event (lit "type") = some (lit "error")
  | .pushed _, event => strField event (lit "type") = some (lit "start") ∨
    strField event (lit "type") = some (lit "progress")

instance : (e : Emission) → (event : Json) → Decidable (e.Documents event)
  | .start _, event => inferInstanceAs (Decidable (strField event _ = _))
  | .flush _, event => inferInstanceAs (Decidable (strField event _ = _ ∧ strField event _ = _))
  | .progress _, event => inferInstanceAs (Decidable (strField event _ = _))
  | .eof _ _, event => inferInstanceAs (Decidable (strField event _ = _))
  | .error _, event => inferInstanceAs (Decidable (strField event _ = _))
  | .pushed _, event => inferInstanceAs (Decidable (strField event _ = _ ∨ strField event _ = _))

theorem Emission.Documents.token {e : Emission} {event : Json} (h : e.Documents event) :
    asStreamConsumer event = e.token := by
  unfold asStreamConsumer
  cases e with
  | flush f =>
    obtain ⟨type, data⟩ := h
    simp [type, data, Emission.token]
  | start _ | progress _ | eof _ _ | error _ =>
    simp only [show strField event (lit "type") = _ from h]
    rfl
  | pushed _ =>
    rcases h with type | type
    · simp only [type]
      rfl
    · simp only [type]
      rfl

/-- The text of flush events. -/
theorem tokenText_token (l : List Emission) :
    tokenText (l.filterMap Emission.token) = ((l.filterMap Emission.flush?).map (·.data)).flatten := by
  induction l with
  | nil => rfl
  | cons e l ih =>
    cases e with
    | flush f =>
      change f.data ++ tokenText (l.filterMap Emission.token) = f.data ++ _
      rw [ih]
    | _ => exact ih

namespace GenAIStreamBuffer

variable {s s' : GenAIStreamBuffer}

/-- The text of the chunks that were accepted. -/
def text (s : GenAIStreamBuffer) : JSString := (s.accepted.map (·.data)).flatten

theorem flushedText_prefix (h : s.books.Conserved) {before after : List Emission}
    (cut : s.emitted = before ++ after) :
    tokenText (before.filterMap Emission.token) = ((flushedChunks before).map (·.data)).flatten ∧
      flushedChunks before <+: s.accepted := by
  constructor
  · have sums : ∀ f ∈ before.filterMap Emission.flush?, f.data = (f.chunks.map (·.data)).flatten := by
      intro f hf
      refine (h.sums f ?_).data
      change f ∈ s.emitted.filterMap Emission.flush?
      rw [cut, List.filterMap_append]
      exact List.mem_append_left _ hf
    rw [tokenText_token, List.map_congr_left sums, flatten_flatMap]
    rfl
  · have chunks : flushedChunks s.emitted ++ s.queue = s.accepted := h.chunks
    rw [← chunks, cut, flushedChunks_append, List.append_assoc]
    exact List.prefix_append ..

end GenAIStreamBuffer

/-! ## Over the network -/

section

variable {options : GenAIStreamNetworkOptions} {throws : Nat → Bool} {calls : List StreamCall}
  {emitted : List Emission} {docs : List Json}

/-- The tokens at the far end are those of the events before the first send that failed. -/
theorem tokens_heard (never : ∀ i, throws i = false)
    (order : docs.Perm ((sentPackets options calls).map GenAIStreamNetworkPacket.json))
    (handed : List.Forall₂ Emission.Documents emitted (calls.map StreamCall.event))
    (ready : ∀ call ∈ calls, call.outcome ≠ .unready) :
    ∃ before after, emitted = before ++ after ∧
      (deliveredEvents options throws docs).filterMap asStreamConsumer =
        before.filterMap Emission.token ∧
      ((∀ call ∈ calls, call.outcome = .sends) → after = []) := by
  have all : numbered calls = calls :=
    List.filter_eq_self.mpr fun call hc => decide_eq_true (ready call hc)
  rw [delivered_eq never order, all, List.filterMap_map]
  clear order all ready
  induction calls generalizing emitted with
  | nil =>
    cases handed
    exact ⟨[], [], rfl, rfl, fun _ => rfl⟩
  | cons call calls ih =>
    obtain ⟨e, rest, doc, later, rfl⟩ := List.forall₂_cons_right_iff.mp handed
    cases sends : call.sends with
    | false =>
      refine ⟨[], e :: rest, rfl, ?_, fun h => ?_⟩
      · rw [List.takeWhile_cons_of_neg (by simp [sends])]
        rfl
      · have := h call List.mem_cons_self
        simp [StreamCall.sends, this] at sends
    | true =>
      obtain ⟨before, after, cut, heard, whole⟩ := ih later
      refine ⟨e :: before, after, by rw [cut, List.cons_append], ?_, fun h =>
        whole fun call hc => h call (List.mem_cons_of_mem _ hc)⟩
      rw [List.takeWhile_cons_of_pos sends, List.filterMap_cons, List.filterMap_cons, heard,
        Function.comp_apply, asStreamConsumer_restored, doc.token]

end

namespace GenAIStreamBuffer

variable {s : GenAIStreamBuffer}

def sixEvent (seq : Nat) : Json :=
  match seq with
  | 0 => .obj [(lit "type", .str (lit "start"))]
  | 1 => .obj [(lit "type", .str (lit "flush")), (lit "data", .str (lit "abcdef"))]
  | _ => .obj [(lit "type", .str (lit "eof"))]

def sixCall (seq : Nat) : StreamCall := ⟨sixEvent seq, 0, .sends⟩

theorem six_splits (seq : Nat) (h : seq < 3) :
    (splitJSON (.ofJson ((sixCall seq).packet plainStream seq).json) .default
      ⟨natText seq, natText⟩).isSome = true := by
  interval_cases seq <;> decide +kernel

theorem six_wf (seq : Nat) (h : seq < 3) : ((sixCall seq).packet plainStream seq).json.Wf := by
  interval_cases seq <;>
    simp +decide [GenAIStreamNetworkPacket.json, StreamCall.packet, sixCall, sixEvent, plainStream,
      Json.wf_obj]

theorem six_plain (seq : Nat) (h : seq < 3) :
    plain ((sixCall seq).packet plainStream seq).json = true := by
  interval_cases seq <;> decide +kernel

theorem six_distinct (seq : Nat) (h : seq < 3) :
    ((Option.get _ (six_splits seq h)).manifest.refs.map JSONChunkRef.cid).Nodup := by
  interval_cases seq <;> decide +kernel +revert

def sixMessage (seq : Nat) (h : seq < 3) : Message where
  value := ((sixCall seq).packet plainStream seq).json
  options := .default
  ids := ⟨natText seq, natText⟩
  split := Option.get _ (six_splits seq h)
  wf := six_wf seq h
  object := ⟨_, rfl⟩
  noProto := six_plain seq h
  made := (Option.some_get _).symm
  distinct := six_distinct seq h

def sixMessages : List Message := (List.finRange 3).map fun i : Fin 3 => sixMessage i.val i.isLt

def closedLetters : List BufferEvent :=
  [.push (.other none), piece "abcd", piece "ef", .close, .resume 0 true, .resume 0 true,
    .resume 0 true]

end GenAIStreamBuffer

end LemonModel
