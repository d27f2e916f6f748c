import LemonModel.Buffer.Wire
import LemonModel.Transport.Scattered
import Mathlib.Data.List.TakeWhile

/-!
# Stream events in order

A receiver that reorders passes the events of a consumer on up to the first call
whose send failed: that call has used a number up, and the receiver waits for it.
-/

namespace LemonModel

open Text

variable {options : GenAIStreamNetworkOptions} {throws : Nat → Bool} {calls : List StreamCall}
  {call : StreamCall}

/-! ## What is sent -/

def StreamCall.sends (call : StreamCall) : Bool := call.outcome = .sends

/-- The calls that used a number up. -/
def numbered (calls : List StreamCall) : List StreamCall :=
  calls.filter fun call => call.outcome ≠ .unready

/-- The events whose packet was sent. -/
def sentEvents (calls : List StreamCall) : List Json :=
  (calls.filter StreamCall.sends).map StreamCall.event

theorem sends_numbered (calls : List StreamCall) :
    (numbered calls).filter StreamCall.sends = calls.filter StreamCall.sends := by
  rw [numbered, List.filter_filter]
  apply List.filter_congr
  intro call _
  cases h : call.outcome <;> simp [StreamCall.sends, h]

theorem packets_foldl (options : GenAIStreamNetworkOptions) (calls : List StreamCall)
    (s : GenAIStreamNetworkConsumer) :
    (calls.foldl (GenAIStreamNetworkConsumer.call options) s).packets = s.packets ++
      (((numbered calls).zipIdx s.seq).filter (·.1.sends)).map fun p => p.1.packet options p.2 := by
  induction calls generalizing s with
  | nil => simp [numbered]
  | cons call calls ih =>
    rw [List.foldl_cons, ih]
    cases h : call.outcome <;>
      simp [GenAIStreamNetworkConsumer.call, numbered, StreamCall.sends, h]

theorem sentPackets_eq (options : GenAIStreamNetworkOptions) (calls : List StreamCall) :
    sentPackets options calls =
      ((numbered calls).zipIdx.filter (·.1.sends)).map fun p => p.1.packet options p.2 :=
  packets_foldl options calls ⟨0, []⟩

/-- A packet that was sent has the number of its call. -/
theorem mem_sentPackets {packet : GenAIStreamNetworkPacket}
    (h : packet ∈ sentPackets options calls) :
    ∃ call, (numbered calls)[packet.seq]? = some call ∧ call.sends = true ∧
      packet = call.packet options packet.seq := by
  rw [sentPackets_eq] at h
  obtain ⟨⟨call, i⟩, hp, rfl⟩ := List.mem_map.mp h
  obtain ⟨at_, sends⟩ := List.mem_filter.mp hp
  exact ⟨call, List.mem_zipIdx_iff_getElem?.mp at_, sends, rfl⟩

theorem seq_mem_sentPackets (options : GenAIStreamNetworkOptions) (i : Nat) :
    i ∈ (sentPackets options calls).map GenAIStreamNetworkPacket.seq ↔
      ∃ call, (numbered calls)[i]? = some call ∧ call.sends = true := by
  constructor
  · intro h
    obtain ⟨packet, hp, rfl⟩ := List.mem_map.mp h
    obtain ⟨call, at_, sends, -⟩ := mem_sentPackets hp
    exact ⟨call, at_, sends⟩
  · rintro ⟨call, at_, sends⟩
    rw [sentPackets_eq, List.map_map]
    exact List.mem_map.mpr ⟨(call, i),
      List.mem_filter.mpr ⟨List.mem_zipIdx_iff_getElem?.mpr at_, sends⟩, rfl⟩

theorem seqs_nodup (options : GenAIStreamNetworkOptions) (calls : List StreamCall) :
    ((sentPackets options calls).map GenAIStreamNetworkPacket.seq).Nodup := by
  rw [sentPackets_eq, List.map_map]
  have seqs : (numbered calls).zipIdx.map Prod.snd = List.range (numbered calls).length := by
    simp [List.range_eq_range']
  have sub : (((numbered calls).zipIdx.filter (·.1.sends)).map Prod.snd).Sublist
      ((numbered calls).zipIdx.map Prod.snd) := List.filter_sublist.map _
  rw [seqs] at sub
  exact List.nodup_range.sublist sub

/-! ## What is received -/

theorem prop?_tail {packet : GenAIStreamNetworkPacket} {k : JSString} (h : k ≠ lit "type")
    (h' : k ≠ lit "sid") : packet.json.prop? k = (Json.obj ((lit "seq", .ofNat packet.seq) ::
      (lit "sentAt", .ofNat packet.sentAt) :: (lit "event", packet.event) ::
        if packet.compact then
          [(lit "compact", .obj [(lit "flushChunksData", .str (lit "fromFlushData"))])]
        else [])).prop? k := by
  unfold GenAIStreamNetworkPacket.json
  cases packet.sid with
  | none =>
    rw [prop?_cons, if_neg h]
    rfl
  | some sid =>
    rw [prop?_cons, if_neg h]
    exact (prop?_cons _ _ _ _).trans (if_neg h')

theorem strField_sid (packet : GenAIStreamNetworkPacket) :
    strField packet.json (lit "sid") = packet.sid := by
  unfold strField GenAIStreamNetworkPacket.json
  cases packet.sid with
  | none =>
    cases packet.compact <;> simp +decide [prop?_cons]
  | some sid => simp +decide [prop?_cons, Json.str?]

theorem hasCompact_json (packet : GenAIStreamNetworkPacket) :
    hasCompact packet.json = packet.compact := by
  rw [hasCompact, prop?_tail (by decide) (by decide)]
  cases packet.compact <;> simp +decide [prop?_cons]

theorem restorePacket_json (packet : GenAIStreamNetworkPacket) :
    restorePacket packet.json = restoreStreamEvent packet.event packet.compact := by
  rw [restorePacket, hasCompact_json, prop?_tail (by decide) (by decide)]
  simp +decide [prop?_cons]

theorem acceptStream_json {packet : GenAIStreamNetworkPacket} (h : packet.sid = options.streamId)
    (r : InOrder Json) :
    acceptStream options throws r packet.json = r.accept throws packet.seq packet.json := by
  have type : strField packet.json (lit "type") = some (lit "genai:stream") := by
    simp [strField, GenAIStreamNetworkPacket.json, prop?_cons, Json.str?]
  have seq : natField packet.json (lit "seq") = some packet.seq := by
    rw [natField, prop?_tail (by decide) (by decide), prop?_cons, if_pos rfl]
    exact Json.nat?_ofNat _
  rw [acceptStream, streamSeq, if_neg (not_not.mpr type), strField_sid,
    if_neg fun other => other.2 h, seq]

/-- The event of a call as the receiver makes it out. -/
def StreamCall.restored (options : GenAIStreamNetworkOptions) (call : StreamCall) : Json :=
  restoreStreamEvent (call.packet options 0).event (call.packet options 0).compact

theorem takeWhile_eq_take {α : Type} {p : α → Bool} {as : List α} {n : Nat}
    (before : ∀ i < n, ∃ a, as[i]? = some a ∧ p a = true)
    (after : ∀ a, as[n]? = some a → p a = false) : as.takeWhile p = as.take n := by
  induction as generalizing n with
  | nil => simp
  | cons a as ih =>
    cases n with
    | zero => rw [List.takeWhile_cons_of_neg (by simp [after a rfl]), List.take_zero]
    | succ n =>
      obtain ⟨_, ⟨rfl⟩, pa⟩ := before 0 (Nat.succ_pos n)
      rw [List.takeWhile_cons_of_pos pa, List.take_succ_cons]
      congr 1
      apply ih
      · intro i hi
        exact before (i + 1) (Nat.succ_lt_succ hi)
      · exact after

/-- **What comes out.** The packets that were sent come in any order: the consumer of
the receiver is called for the calls before the first whose send failed. -/
theorem delivered_eq (never : ∀ i, throws i = false) {docs : List Json}
    (order : docs.Perm ((sentPackets options calls).map GenAIStreamNetworkPacket.json)) :
    deliveredEvents options throws docs =
      ((numbered calls).takeWhile StreamCall.sends).map (StreamCall.restored options) := by
  obtain ⟨packets, perm, rfl⟩ : ∃ packets : List GenAIStreamNetworkPacket,
      packets.Perm (sentPackets options calls) ∧ docs = packets.map GenAIStreamNetworkPacket.json := by
    have := congrFun (congrFun (List.eq_map_comp_perm GenAIStreamNetworkPacket.json) docs)
      (sentPackets options calls)
    obtain ⟨packets, rfl, perm⟩ := this.mpr order
    exact ⟨packets, perm, rfl⟩
  have own : ∀ packet ∈ packets, ∃ call, (numbered calls)[packet.seq]? = some call ∧
      call.sends = true ∧ packet = call.packet options packet.seq := fun packet hp =>
    mem_sentPackets (perm.mem_iff.mp hp)
  have accepted (r : InOrder Json) :
      (packets.map GenAIStreamNetworkPacket.json).foldl (acceptStream options throws) r =
        (packets.map fun p => (p.seq, p.json)).foldl (fun r p => r.accept throws p.1 p.2) r := by
    rw [List.foldl_map, List.foldl_map]
    apply List.foldl_ext
    intro r packet hp
    obtain ⟨call, -, -, made⟩ := own packet hp
    apply acceptStream_json
    rw [made]
    rfl
  have distinct : ((packets.map fun p => (p.seq, p.json)).map Prod.fst).Nodup := by
    rw [List.map_map]
    exact (perm.map GenAIStreamNetworkPacket.seq).nodup_iff.mpr (seqs_nodup options calls)
  have placed : ∀ p ∈ packets.map fun p => (p.seq, p.json),
      ((numbered calls).mapIdx fun i call => (call.packet options i).json)[p.1]? = some p.2 := by
    intro p hp
    obtain ⟨packet, mem, rfl⟩ := List.mem_map.mp hp
    obtain ⟨call, at_, -, made⟩ := own packet mem
    rw [List.getElem?_mapIdx, at_, Option.map_some, ← made]
  obtain ⟨n, out, came, gap⟩ := InOrder.out_prefix never distinct placed
  have numbers (i : Nat) : i ∈ (packets.map fun p => (p.seq, p.json)).map Prod.fst ↔
      ∃ call, (numbered calls)[i]? = some call ∧ call.sends = true := by
    rw [List.map_map, ← seq_mem_sentPackets options]
    exact (perm.map GenAIStreamNetworkPacket.seq).mem_iff
  have restored : ((numbered calls).mapIdx fun i call => (call.packet options i).json).map
      restorePacket = (numbered calls).map (StreamCall.restored options) := by
    apply List.ext_getElem?
    intro i
    simp only [List.getElem?_map, List.getElem?_mapIdx, Option.map_map]
    congr 1
    funext call
    exact restorePacket_json _
  rw [deliveredEvents, accepted, out, List.map_take, restored, ← List.map_take]
  congr 1
  apply (takeWhile_eq_take _ _).symm
  · intro i hi
    exact (numbers i).mp (came i hi)
  · intro call at_
    by_contra sends
    exact gap ((numbers n).mpr ⟨call, at_, Bool.not_eq_false _ ▸ sends⟩)

/-! ## When the content is kept -/

/-- Where data is left out of the chunks of a flush, every chunk that has data tells its
length. -/
def Restorable (options : GenAIStreamNetworkOptions) (event : Json) : Prop :=
  options.compactFlush = true → isFlush event = true → canCompactFlushEvent event = true →
    CharsGiven event

theorem substring_empty (s : JSString) (a : ℚ) : substring s a (a + 0) = [] := by
  simp [substring]

theorem SameProps.prop?_eq {a b : Json} (h : SameProps a b) (k : JSString) :
    a.prop? k = b.prop? k := by
  rcases h with rfl | ⟨-, same⟩
  · rfl
  · exact same k

/-- Chunks are restored only where their lengths are given. -/
theorem given_of_restoreChunks {data : JSString} {offset : ℚ} {chunks : List Json}
    (compacts : canCompactChunks data offset chunks = true)
    (same : List.Forall₂ SameProps (restoreChunks data offset (chunks.map withoutData)) chunks) :
    ∀ chunk ∈ chunks, chunkChars chunk = none → strField chunk (lit "data") = some [] := by
  induction chunks generalizing offset with
  | nil => exact fun _ h => nomatch h
  | cons chunk rest ih =>
    obtain ⟨cut, compacts⟩ := of_decide_eq_true compacts
    rw [List.map_cons, restoreChunks] at same
    simp only [chunkChars_withoutData] at same
    obtain ⟨first, same⟩ := List.forall₂_cons.mp same
    have field : strField chunk (lit "data") =
        some (substring data offset (offset + (chunkChars chunk).getD 0)) := by
      rw [strField, ← first.prop?_eq, prop?_withProp, if_pos rfl]
      rfl
    have size : (chunkChars chunk).getD 0 = chunkSize chunk := by
      rw [chunkSize]
      cases hc : chunkChars chunk with
      | some c => rfl
      | none =>
        rw [field, hc, Option.getD_none, substring_empty]
        rfl
    rw [size] at same
    intro c hc none
    rcases List.mem_cons.mp hc with rfl | hc
    · rw [field, none, Option.getD_none, substring_empty]
    · exact ih compacts same c hc none

theorem SameEvent.chunks {a b : Json} {xs ys : List Json} (h : SameEvent a b)
    (ha : eventChunks a = some xs) (hb : eventChunks b = some ys) : List.Forall₂ SameProps xs ys := by
  rcases h with rfl | ⟨-, -, xs', ys', ha', hb', same⟩
  · obtain rfl : xs = ys := Option.some.inj (ha.symm.trans hb)
    exact List.forall₂_same.mpr fun x _ => .inl rfl
  · obtain rfl : xs = xs' := Option.some.inj (ha.symm.trans ha')
    obtain rfl : ys = ys' := Option.some.inj (hb.symm.trans hb')
    exact same

/-- What was left out of the chunks is there again only where it was told. -/
theorem compacted_iff {event : Json} :
    SameEvent (restoreStreamEvent (compactStreamEvent event).1 (compactStreamEvent event).2) event ↔
      (isFlush event = true → canCompactFlushEvent event = true → CharsGiven event) := by
  constructor
  · intro same flush compacts
    obtain ⟨_, data, chunks, -, hchunks, compacts, restored⟩ := restore_cut flush compacts
    rw [restored] at same
    rw [CharsGiven, hchunks]
    exact given_of_restoreChunks compacts (same.chunks (eventChunks_withProp _ _) hchunks)
  · intro given
    by_cases h : isFlush event ∧ canCompactFlushEvent event
    · exact restore_compact (given h.1 h.2)
    · exact .inl (restore_whole h)

/-- **When the receiver makes out the event that was sent.** -/
theorem restored_iff : SameEvent (call.restored options) call.event ↔
    Restorable options call.event := by
  unfold StreamCall.restored StreamCall.packet Restorable
  cases options.compactFlush with
  | false =>
    have whole : restoreStreamEvent call.event false = call.event := if_neg (by simp)
    exact iff_of_true (.inl whole) fun h => nomatch h
  | true =>
    simp only [if_true, true_implies]
    exact compacted_iff

/-! ## Compaction alone -/

/-- **When compaction loses nothing.** The packet that carries the compacted event is
restored to the event, whatever its chunks, exactly if every chunk that is left without data
and does not tell its length was empty. -/
theorem compaction_is_lossless (event : Json) (sid : Option JSString) (seq sentAt : Nat) :
    SameEvent (restorePacket (GenAIStreamNetworkPacket.json
        ⟨sid, seq, sentAt, (compactStreamEvent event).1, (compactStreamEvent event).2⟩)) event ↔
      (isFlush event = true → canCompactFlushEvent event = true → CharsGiven event) := by
  rw [restorePacket_json]
  exact compacted_iff

/-- A flush of one chunk that does not tell its length. -/
def bareFlush : Json :=
  .obj [(lit "type", .str (lit "flush")), (lit "data", .str (lit "ab")),
    (lit "chunks", .arr [.obj [(lit "type", .str (lit "chunk")), (lit "data", .str (lit "ab"))]])]

theorem bare_chunk_is_lost : ¬ SameEvent (restorePacket (GenAIStreamNetworkPacket.json
    ⟨none, 0, 0, (compactStreamEvent bareFlush).1, (compactStreamEvent bareFlush).2⟩)) bareFlush := by
  rw [restorePacket_json, compacted_iff]
  intro given
  have told := given (by decide +kernel) (by decide +kernel)
    (.obj [(lit "type", .str (lit "chunk")), (lit "data", .str (lit "ab"))]) (by decide +kernel)
    (by decide +kernel)
  revert told
  decide +kernel

/-! ## The whole way -/

/-- No send that fails comes before one that does not. -/
def NoGap (calls : List StreamCall) : Prop :=
  calls.Pairwise fun a b => a.outcome = .fails → b.outcome ≠ .sends

instance (calls : List StreamCall) : Decidable (NoGap calls) :=
  inferInstanceAs (Decidable (calls.Pairwise _))

theorem filter_eq_takeWhile {α : Type} {p : α → Bool} (as : List α) :
    as.filter p = as.takeWhile p ↔ as.Pairwise fun a b => p b = true → p a = true := by
  induction as with
  | nil => simp
  | cons a as ih =>
    rw [List.pairwise_cons]
    cases pa : p a with
    | true =>
      rw [List.filter_cons_of_pos pa, List.takeWhile_cons_of_pos pa, List.cons.injEq, ih]
      simp
    | false =>
      rw [List.filter_cons_of_neg (by simp [pa]), List.takeWhile_cons_of_neg (by simp [pa]),
        List.filter_eq_nil_iff]
      constructor
      · intro none
        refine ⟨fun b hb pb => absurd pb (none b hb), ?_⟩
        exact List.pairwise_of_forall_mem_list fun b _ c hc pc => absurd pc (none c hc)
      · rintro ⟨first, -⟩ b hb pb
        cases first b hb pb

theorem noGap_iff (calls : List StreamCall) :
    NoGap calls ↔ (numbered calls).filter StreamCall.sends =
      (numbered calls).takeWhile StreamCall.sends := by
  rw [filter_eq_takeWhile, numbered, List.pairwise_filter, NoGap]
  apply iff_of_eq
  congr 1
  funext a b
  cases ha : a.outcome <;> cases hb : b.outcome <;> simp [StreamCall.sends, ha, hb]

/-- **When the stream arrives.** The receiver gets the packets of the calls that sent, in
any order. It passes on exactly their events, in the order of the calls and with their
content, if and only if no send failed before another one and no data was left out of a
chunk that does not tell its length. -/
theorem stream_arrives_iff {ms : List Message} {own : SplitOptions} {partialTtlMs now : Nat}
    {mode : Option ReliableOptions} {listeners : List Nat} {listener : Nat} {is : List Input}
    {ps : List JSONTransportPacket} {t : Transport}
    (messages : ms.map Message.value =
      (sentPackets options calls).map GenAIStreamNetworkPacket.json)
    (tids : (ms.map Message.tid).Nodup) (order : ps.Perm (ms.flatMap (·.split.packets)))
    (texts : is.filterMap Input.text? = ps.map JSONTransportPacket.wire)
    (run : Run Transport.input Unexpired (.listening own partialTtlMs mode now listeners) is t)
    (mem : listener ∈ listeners) (never : ∀ i, throws i = false) :
    List.Forall₂ SameEvent (deliveredEvents options throws (t.heard listener).reverse)
        (sentEvents calls) ↔
      NoGap calls ∧ ∀ call ∈ calls, call.outcome = .sends → Restorable options call.event := by
  have heard := scattered_heard tids order texts run mem
  rw [messages] at heard
  rw [delivered_eq never ((List.reverse_perm _).trans heard), noGap_iff, sentEvents,
    ← sends_numbered, List.forall₂_map_left_iff, List.forall₂_map_right_iff]
  constructor
  · intro same
    have whole : (numbered calls).takeWhile StreamCall.sends =
        (numbered calls).filter StreamCall.sends := by
      have own : ((numbered calls).takeWhile StreamCall.sends).filter StreamCall.sends =
          (numbered calls).takeWhile StreamCall.sends :=
        List.filter_eq_self.mpr fun _ => List.mem_takeWhile_imp
      have sub : (((numbered calls).takeWhile StreamCall.sends).filter StreamCall.sends).Sublist
          ((numbered calls).filter StreamCall.sends) := (List.takeWhile_sublist _).filter _
      rw [own] at sub
      exact sub.eq_of_length same.length_eq
    rw [whole, List.forall₂_same] at same
    refine ⟨whole.symm, fun call hc sends => restored_iff.mp (same call ?_)⟩
    rw [sends_numbered]
    exact List.mem_filter.mpr ⟨hc, decide_eq_true sends⟩
  · rintro ⟨whole, restorable⟩
    rw [← whole, List.forall₂_same]
    intro call hc
    rw [sends_numbered] at hc
    obtain ⟨hc, sends⟩ := List.mem_filter.mp hc
    exact restored_iff.mpr (restorable call hc (of_decide_eq_true sends))

/-! Two chunks, and a last one whose send fails; the packets come from the last to the first. -/

def plainStream : GenAIStreamNetworkOptions := ⟨none, false⟩

def chunkCall (data : String) (outcome : SendOutcome) : StreamCall :=
  ⟨.obj [(lit "type", .str (lit "chunk")), (lit "data", .str (lit data))], 0, outcome⟩

def streamSplit : SplitOptions := { SplitOptions.default with largeValueBytes := 9, chunkBytes := 8 }

theorem chunk_splits (seq : Nat) (h : seq < 2) :
    (splitJSON (.ofJson ((chunkCall "cut in two" .sends).packet plainStream seq).json) streamSplit
      ⟨natText seq, natText⟩).isSome = true := by
  interval_cases seq <;> decide +kernel

theorem chunk_wf (seq : Nat) : ((chunkCall "cut in two" .sends).packet plainStream seq).json.Wf := by
  simp +decide [GenAIStreamNetworkPacket.json, StreamCall.packet, chunkCall, plainStream,
    Json.wf_obj]

theorem chunk_noProto (seq : Nat) (h : seq < 2) :
    plain ((chunkCall "cut in two" .sends).packet plainStream seq).json = true := by
  interval_cases seq <;> decide +kernel

theorem chunk_made (seq : Nat) (h : seq < 2) :
    splitJSON (.ofJson ((chunkCall "cut in two" .sends).packet plainStream seq).json) streamSplit
      ⟨natText seq, natText⟩ = some (Option.get _ (chunk_splits seq h)) :=
  (Option.some_get _).symm

theorem chunk_distinct (seq : Nat) (h : seq < 2) :
    ((Option.get _ (chunk_splits seq h)).manifest.refs.map JSONChunkRef.cid).Nodup := by
  interval_cases seq <;> decide +kernel +revert

/-- The packet of a call as a message of the transport. -/
def chunkMessage (seq : Nat) (h : seq < 2) : Message where
  value := ((chunkCall "cut in two" .sends).packet plainStream seq).json
  options := streamSplit
  ids := ⟨natText seq, natText⟩
  split := _
  wf := chunk_wf seq
  object := ⟨_, rfl⟩
  noProto := chunk_noProto seq h
  made := chunk_made seq h
  distinct := chunk_distinct seq h

def twoChunks : List StreamCall :=
  [chunkCall "cut in two" .sends, chunkCall "cut in two" .sends, chunkCall "lost" .fails]

def twoMessages : List Message := [chunkMessage 0 (by decide), chunkMessage 1 (by decide)]

theorem stream_arrives_two :
    ∃ t, exec Transport.input (.listening .default DEFAULT_PARTIAL_TTL_MS none 0 [0])
        ((twoMessages.flatMap (·.split.packets)).reverse.map fun q => .packet q.wire) = some t ∧
      List.Forall₂ SameEvent (deliveredEvents plainStream (fun _ => false) (t.heard 0).reverse)
        (sentEvents twoChunks) := by
  obtain ⟨t, run⟩ := Run.of_allGood Transport.input Unexpired
    (.listening .default DEFAULT_PARTIAL_TTL_MS none 0 [0])
    ((twoMessages.flatMap (·.split.packets)).reverse.map fun q => .packet q.wire)
    (by decide +kernel)
  refine ⟨t, run.exec_eq, ?_⟩
  apply (@stream_arrives_iff plainStream _ twoChunks twoMessages _ _ _ _ _ _ _
    (twoMessages.flatMap (·.split.packets)).reverse _ rfl (by decide +kernel)
    (List.reverse_perm _) (by simp [List.filterMap_map, Function.comp_def, Input.text?]) run
    (List.mem_singleton.mpr rfl) fun _ => rfl).mpr
  refine ⟨by decide +kernel, fun call _ _ compacts => ?_⟩
  cases compacts

/-- A call that fails, and one that sends. -/
def gapped : List StreamCall := [chunkCall "lost" .fails, chunkCall "cut in two" .sends]

/-- After a send that failed, nothing is passed on any more. -/
theorem failed_send_stalls :
    (sentPackets plainStream gapped).map GenAIStreamNetworkPacket.json =
        [(chunkMessage 1 (by decide)).value] ∧
      sentEvents gapped = [(chunkCall "cut in two" .sends).event] ∧
      (exec Transport.input (.listening .default DEFAULT_PARTIAL_TTL_MS none 0 [0])
          ((chunkMessage 1 (by decide)).split.packets.map fun q => .packet q.wire)).map
        (fun t => (t.heard 0, deliveredEvents plainStream (fun _ => false) (t.heard 0).reverse)) =
      some ([(chunkMessage 1 (by decide)).value], []) := by
  decide +kernel

end LemonModel
