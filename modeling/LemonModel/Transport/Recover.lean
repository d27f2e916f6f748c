import LemonModel.Transport.Stray

/-!
# Recovery by nacks

A reliable receiver has some packets of a message, some chunks of them damaged. Its nack
timer fires, the sender answers, the answer comes in any order. `nacks_recover` says that
two such rounds are enough, and for which messages.
-/

namespace LemonModel

open Text

variable {cid : Nat → JSString} {split : JSONSplitResult} {pieces : List Piece} {doc : Json}
  {s : JSONReceiveState} {l l' : List JSONTransportPacket} {q : JSONTransportPacket}
  {c : JSONChunkPacket} {pending : PendingSend}

/-! ## What the sender answers -/

/-- The indices of a ref with no chunk. -/
def lacking (s : JSONReceiveState) (ref : JSONChunkRef) : List Nat :=
  (List.range ref.chunks).filter fun index => (s.chunk? ref.cid index).isNone

theorem mem_lacking {ref : JSONChunkRef} {index : Nat} :
    index ∈ lacking s ref ↔ index < ref.chunks ∧ s.chunk? ref.cid index = none := by
  rw [lacking, List.mem_filter, List.mem_range, Option.isNone_iff_eq_none]

theorem missingChunks_eq (s : JSONReceiveState) (refs : List JSONChunkRef) :
    Transport.missingChunks s refs =
      (refs.filter fun ref => lacking s ref ≠ []).map fun ref => ⟨ref.cid, lacking s ref⟩ := by
  rw [Transport.missingChunks, ← List.filterMap_eq_map, List.filterMap_filter]
  congr 1
  funext ref
  by_cases whole : lacking s ref = []
  · have whole' := whole
    rw [lacking] at whole'
    simp [whole, whole']
  · have part := whole
    rw [lacking] at part
    simp only [if_neg part]
    simp [whole]
    rfl

/-- The chunks of a ref that the sender finds for a nack. -/
def resent (split : JSONSplitResult) (s : JSONReceiveState) (ref : JSONChunkRef) :
    List JSONTransportPacket :=
  (lacking s ref).filterMap fun index =>
    (split.chunks.find? fun item => item.cid = ref.cid ∧ item.index = index).map .chunk

theorem mem_resent {ref : JSONChunkRef} (h : q ∈ resent split s ref) :
    ∃ c ∈ split.chunks, q = .chunk c ∧ c.cid = ref.cid ∧ s.chunk? c.cid c.index = none := by
  obtain ⟨index, hi, found⟩ := List.mem_filterMap.mp h
  obtain ⟨c, first, rfl⟩ := Option.map_eq_some_iff.mp found
  have slot : c.cid = ref.cid ∧ c.index = index := by simpa using List.find?_some first
  refine ⟨c, List.mem_of_find?_eq_some first, rfl, slot.1, ?_⟩
  rw [slot.1, slot.2]
  exact (mem_lacking.mp hi).2

/-- Before the manifest is there, it is what is answered. -/
theorem nackAnswer_manifest (absent : s.manifest = none) :
    Transport.nackAnswer pending (Transport.buildNackPacket s) =
      [.manifest pending.split.manifest] := by
  simp [Transport.nackAnswer, Transport.buildNackPacket, absent]

theorem flatMap_missing (refs : List JSONChunkRef) :
    ((Transport.missingChunks s refs).flatMap fun entry => entry.missing.filterMap fun index =>
      (split.chunks.find? fun item => item.cid = entry.cid ∧ item.index = index).map
        JSONTransportPacket.chunk) = refs.flatMap (resent split s) := by
  rw [missingChunks_eq, List.flatMap_map]
  induction refs with
  | nil => rfl
  | cons ref refs ih =>
    rw [List.flatMap_cons, ← ih]
    by_cases whole : lacking s ref = []
    · rw [List.filter_cons_of_neg (by simpa using whole), resent, whole]
      rfl
    · rw [List.filter_cons_of_pos (by simpa using whole), List.flatMap_cons]
      rfl

/-- Once a manifest is there, the chunks that are missing are answered, and the end. -/
theorem nackAnswer_rest {m : JSONManifestPacket} (there : s.manifest = some m) :
    Transport.nackAnswer pending (Transport.buildNackPacket s) =
      m.refs.flatMap (resent pending.split s) ++
        if s.complete then [] else [.complete pending.split.tid] := by
  rw [← flatMap_missing, Transport.nackAnswer, Transport.buildNackPacket, there]
  have chunks : ((if Transport.missingChunks s m.refs = [] then none
      else some (Transport.missingChunks s m.refs)).getD []) = Transport.missingChunks s m.refs := by
    split
    · rename_i none
      rw [none]
      rfl
    · rfl
  simp only [chunks]
  cases s.complete <;> simp

/-- **The answer to a nack is what the receiver does not have**, whatever its state. -/
theorem nackAnswer_lacking (pending : PendingSend) (s : JSONReceiveState) :
    ∀ p ∈ Transport.nackAnswer pending (Transport.buildNackPacket s),
      p ∈ pending.split.packets ∧ s.got p = false := by
  intro p hp
  cases own : s.manifest with
  | none =>
    rw [nackAnswer_manifest own, List.mem_singleton] at hp
    obtain rfl := hp
    exact ⟨mem_splitPackets.mpr (.inl rfl), by simp [JSONReceiveState.got, own]⟩
  | some m =>
    rw [nackAnswer_rest own, List.mem_append] at hp
    rcases hp with hp | hp
    · obtain ⟨ref, -, hp⟩ := List.mem_flatMap.mp hp
      obtain ⟨c, hc, rfl, -, empty⟩ := mem_resent hp
      exact ⟨mem_splitPackets.mpr (.inr (.inl ⟨c, hc, rfl⟩)), by simp [JSONReceiveState.got, empty]⟩
    · cases ended : s.complete with
      | true => simp [ended] at hp
      | false =>
        obtain rfl : p = .complete pending.split.tid := by simpa [ended] using hp
        exact ⟨mem_splitPackets.mpr (.inr (.inr rfl)), ended⟩

/-- Every chunk of the message that is missing is found. -/
theorem resent_of_missing (made : MadeOf cid split pieces doc) (sound : Sound pieces)
    (hc : c ∈ split.chunks) (empty : s.chunk? c.cid c.index = none) :
    .chunk c ∈ split.manifest.refs.flatMap (resent split s) := by
  obtain ⟨p, hp, index, h, rfl⟩ := (made.chunks c).mp hc
  have first : split.chunks.find? (fun item => item.cid = p.cid ∧ item.index = index) =
      some (p.chunk split.tid index h) := by
    cases found : split.chunks.find? fun item => item.cid = p.cid ∧ item.index = index with
    | none =>
      have absent := List.find?_eq_none.mp found _ hc
      simp [Piece.chunk] at absent
    | some c =>
      have slot : c.cid = p.cid ∧ c.index = index := by simpa using List.find?_some found
      rw [chunk_eq made sound (List.mem_of_find?_eq_some found) hc slot.1 slot.2]
  rw [made.refs, List.mem_flatMap]
  refine ⟨p.ref [], List.mem_map_of_mem hp, List.mem_filterMap.mpr ⟨index, ?_, ?_⟩⟩
  · exact mem_lacking.mpr ⟨h, empty⟩
  · exact congrArg _ first

/-- Nothing is answered twice. -/
theorem nackAnswer_nodup (made : MadeOf cid split pieces doc) (sound : Sound pieces)
    (own : pending.split = split) (manifest : ∀ m, s.manifest = some m → m = split.manifest) :
    (Transport.nackAnswer pending (Transport.buildNackPacket s)).Nodup := by
  cases there : s.manifest with
  | none =>
    rw [nackAnswer_manifest there]
    exact List.nodup_singleton _
  | some m =>
    obtain rfl := manifest m there
    have cids : (split.manifest.refs.map (·.cid)).Nodup := by
      rw [made.refs, ref_cids]
      exact sound.cids
    have chunks : (split.manifest.refs.flatMap (resent split s)).Nodup := by
      rw [List.nodup_flatMap]
      constructor
      · intro ref _
        apply List.Nodup.filterMap
        · intro i i' q hq hq'
          obtain ⟨c, first, rfl⟩ := Option.map_eq_some_iff.mp hq
          obtain ⟨c', first', same⟩ := Option.map_eq_some_iff.mp hq'
          obtain rfl := JSONTransportPacket.chunk.inj same
          have slot : c'.cid = ref.cid ∧ c'.index = i := by simpa using List.find?_some first
          have slot' : c'.cid = ref.cid ∧ c'.index = i' := by simpa using List.find?_some first'
          omega
        · exact List.nodup_range.filter _
      · rw [List.Nodup, List.pairwise_map] at cids
        refine cids.imp fun {a b} other => ?_
        intro q ha hb
        obtain ⟨c, -, rfl, ca, -⟩ := mem_resent ha
        obtain ⟨c', -, same, cb, -⟩ := mem_resent hb
        obtain rfl := JSONTransportPacket.chunk.inj same
        exact other (ca.symm.trans cb)
    rw [nackAnswer_rest there, own]
    cases s.complete with
    | true =>
      rw [if_pos rfl, List.append_nil]
      exact chunks
    | false =>
      rw [if_neg Bool.false_ne_true, List.nodup_append]
      refine ⟨chunks, List.nodup_singleton _, fun a ha b hb same => ?_⟩
      rw [List.mem_singleton] at hb
      obtain ⟨ref, -, ha⟩ := List.mem_flatMap.mp ha
      obtain ⟨c, -, rfl, -, -⟩ := mem_resent ha
      rw [hb] at same
      cases same

/-! ## Packets that came, some of them damaged -/

/-- A chunk whose data was damaged on the way: its hash is no longer right. -/
def Garbled (p q : JSONTransportPacket) : Prop :=
  ∃ c c' : JSONChunkPacket, p = .chunk c ∧ q = .chunk c' ∧ c'.tid = c.tid ∧ c'.cid = c.cid ∧
    c'.index = c.index ∧ c'.total = c.total ∧ c'.hash = c.hash ∧ c'.hash ≠ hashString c'.data

/-- A packet on its way: it comes as it was sent or damaged. -/
def Comes (p q : JSONTransportPacket) : Prop :=
  q = p ∨ Garbled p q

/-- Packets of the message, and damaged ones. -/
def Mixed (split : JSONSplitResult) (l : List JSONTransportPacket) : Prop :=
  ∀ q ∈ l, q ∈ split.packets ∨ ∃ p ∈ split.packets, Garbled p q

theorem Mixed.bound (h : Mixed split l) (made : MadeOf cid split pieces doc) :
    ∀ q ∈ l, Bound split q := by
  intro q hq
  rcases h q hq with own | ⟨p, hp, c, c', rfl, rfl, tid, -⟩
  · exact .inl own
  · exact .inr ⟨c', rfl, tid.trans (made.packets_tid _ hp)⟩

/-- Only chunks of the message are buffered. -/
theorem Mixed.admitted (h : Mixed split l) :
    ∀ c ∈ admitted split false l, c ∈ split.chunks ∧ .chunk c ∈ l := by
  intro c hc
  obtain ⟨mem, hash⟩ := mem_admitted hc
  rcases h _ mem with own | ⟨p, hp, d, d', rfl, same, -, -, -, -, -, wrong⟩
  · exact ⟨by simpa using mem_splitPackets.mp own, mem⟩
  · obtain rfl := JSONTransportPacket.chunk.inj same
    exact absurd hash wrong

/-- A packet of the message has not come. -/
def Missing (split : JSONSplitResult) (l : List JSONTransportPacket) : Prop :=
  ∃ p ∈ split.packets, p ∉ l

theorem not_missing : ¬ Missing split l ↔ ∀ p ∈ split.packets, p ∈ l := by
  simp [Missing]

theorem Mixed.due_iff (h : Mixed split l) (made : MadeOf cid split pieces doc)
    (sound : Sound pieces) : Due split l ↔ ¬ Missing split l := by
  rw [not_missing]
  constructor
  · intro due q hq
    rcases mem_splitPackets.mp hq with rfl | ⟨c, hc, rfl⟩ | rfl
    · exact due.manifest
    · obtain ⟨p, hp, index, hi, rfl⟩ := (made.chunks c).mp hc
      have full := due.filled (p.ref []) (made.refs ▸ List.mem_map_of_mem hp)
      rw [spelled, Option.isSome_map] at full
      obtain ⟨parts, gathered⟩ := Option.isSome_iff_exists.mp full
      have slot := mapM_isSome gathered index (List.mem_range.mpr hi)
      rw [Option.isSome_map] at slot
      obtain ⟨c, first⟩ := Option.isSome_iff_exists.mp slot
      obtain ⟨mem, sameCid, sameIndex⟩ := holder_some first
      obtain ⟨own, came⟩ := h.admitted c mem
      rw [chunk_eq made sound own hc sameCid sameIndex] at came
      exact came
    · exact due.complete
  · intro all
    refine ⟨all _ (mem_splitPackets.mpr (.inl rfl)), all _ (mem_splitPackets.mpr (.inr (.inr rfl))),
      fun ref hr => ?_⟩
    rw [made.refs] at hr
    obtain ⟨p, hp, rfl⟩ := List.mem_map.mp hr
    have chunks : ∀ c ∈ split.chunks, .chunk c ∈ l := fun c hc =>
      all _ (mem_splitPackets.mpr (.inr (.inl ⟨c, hc, rfl⟩)))
    rw [spelled_own made sound chunks (fun c mem => (h.admitted c mem).1) hp]
    rfl

theorem Mixed.harmless (h : Mixed split l) (made : MadeOf cid split pieces doc)
    (sound : Sound pieces) (all : ¬ Missing split l) : HarmlessStrays split l := by
  refine harmless_of_own made sound (fun c hc => ?_) fun c mem => (h.admitted c mem).1
  exact not_missing.mp all _ (mem_splitPackets.mpr (.inr (.inl ⟨c, hc, rfl⟩)))

/-- What came is taken in. -/
theorem Buffered.got (b : Buffered split l s) (made : MadeOf cid split pieces doc)
    (sound : Sound pieces) (mixed : Mixed split l) (hq : q ∈ split.packets) (mem : q ∈ l) :
    s.got q = true := by
  rcases mem_splitPackets.mp hq with rfl | ⟨c, hc, rfl⟩ | rfl
  · rw [got_manifest, b.manifest, if_pos mem]
  · rw [got_chunk, b.chunk]
    have admitted := admitted_of_mem mem (chunk_hash made hc) (own_chunk made hc) false
    cases first : holder split l c.cid c.index with
    | none =>
      have absent := List.find?_eq_none.mp first c admitted
      simp at absent
    | some c' =>
      obtain ⟨there, sameCid, sameIndex⟩ := holder_some first
      rw [chunk_eq made sound (mixed.admitted c' there).1 hc sameCid sameIndex]
  · rw [got_complete, b.complete]
    exact decide_eq_true mem

/-- What was taken in came. -/
theorem Buffered.came (b : Buffered split l s) (mixed : Mixed split l) (hq : q ∈ split.packets)
    (got : s.got q = true) : q ∈ l := by
  rcases mem_splitPackets.mp hq with rfl | ⟨c, hc, rfl⟩ | rfl
  · rw [got_manifest, b.manifest] at got
    by_contra absent
    rw [if_neg absent] at got
    cases got
  · rw [got_chunk, b.chunk] at got
    exact (mixed.admitted c (holder_some got).1).2
  · rw [got_complete, b.complete] at got
    exact of_decide_eq_true got

/-- **One answer.** It brings the manifest, or else everything that is missing. -/
theorem Buffered.answer (b : Buffered split l s) (made : MadeOf cid split pieces doc)
    (sound : Sound pieces) (mixed : Mixed split l) (own : pending.split = split) :
    (∀ q ∈ Transport.nackAnswer pending (Transport.buildNackPacket s),
        q ∈ split.packets ∧ q ∉ l) ∧
      (.manifest split.manifest ∉ l → .manifest split.manifest ∈
        Transport.nackAnswer pending (Transport.buildNackPacket s)) ∧
      (.manifest split.manifest ∈ l → ∀ p ∈ split.packets, p ∈ l ∨ p ∈
        Transport.nackAnswer pending (Transport.buildNackPacket s)) := by
  refine ⟨fun q hq => ?_, fun absent => ?_, fun there p hp => ?_⟩
  · obtain ⟨mem, lacks⟩ := nackAnswer_lacking pending s q hq
    rw [own] at mem
    refine ⟨mem, fun came => ?_⟩
    rw [b.got made sound mixed mem came] at lacks
    cases lacks
  · rw [nackAnswer_manifest (b.manifest.trans (if_neg absent)), own]
    exact List.mem_singleton.mpr rfl
  · by_cases came : p ∈ l
    · exact .inl came
    · right
      have known := b.manifest.trans (if_pos there)
      rw [nackAnswer_rest known, own, List.mem_append]
      rcases mem_splitPackets.mp hp with rfl | ⟨c, hc, rfl⟩ | rfl
      · exact absurd there came
      · left
        apply resent_of_missing made sound hc
        cases slot : s.chunk? c.cid c.index with
        | none => rfl
        | some c' =>
          rw [b.chunk] at slot
          obtain ⟨mem, sameCid, sameIndex⟩ := holder_some slot
          obtain ⟨hc', came'⟩ := mixed.admitted c' mem
          rw [chunk_eq made sound hc' hc sameCid sameIndex] at came'
          exact absurd came' came
      · right
        have waiting : s.complete = false := b.complete.trans (decide_eq_false came)
        simp [waiting]

/-! ## A round -/

variable {t t' R S S' : Transport} {listeners : List Nat} {listener : Nat} {tid : JSString}
  {nack : JSONNackPacket} {reply ps : List JSONTransportPacket} {is : List Input} {n : Nat}

/-- The nack timer of the message fires and a nack goes out. -/
structure Fires (tid : JSString) (receiver : Transport) (nack : JSONNackPacket) : Prop where
  armed : tid ∈ receiver.nackTimers
  sent : (complete (receiver.fireNack tid)).log = .answered (.nack nack) :: receiver.log

/-- Given the nack, the sender sends these packets. -/
def Answers (sender : Transport) (nack : JSONNackPacket) (reply : List JSONTransportPacket) :
    Prop :=
  (sender.deliver (JSONTransportPacket.nack nack).wire).log =
    (reply.map Effect.sent).reverse ++ sender.log

/-- No partial is past its TTL, and no nack timer fires. -/
def Unfired (t : Transport) (i : Input) : Prop :=
  t.expiredPartials = [] ∧ ∀ x, i ≠ .fireNack x

instance (t : Transport) (i : Input) : Decidable (Unfired t i) := by
  unfold Unfired
  cases i with
  | fireNack x => exact .isFalse fun h => h.2 x rfl
  | _ => exact decidable_of_iff (t.expiredPartials = []) (by simp)

/-- After `n` rounds: the receiver's nack timer fires, the sender answers the nack, and the
answer comes in any order. -/
inductive Rounds (tid : JSString) (sender receiver : Transport) :
    Nat → Transport → Transport → Prop where
  | start : Rounds tid sender receiver 0 sender receiver
  | next {n : Nat} {S R R' : Transport} {nack : JSONNackPacket}
      {reply ps : List JSONTransportPacket} {is : List Input}
      (before : Rounds tid sender receiver n S R) (fires : Fires tid R nack)
      (answered : Answers S nack reply) (order : ps.Perm reply)
      (texts : is.filterMap Input.text? = ps.map JSONTransportPacket.wire)
      (run : Run Transport.input Unfired (complete (R.fireNack tid)) is R') :
      Rounds tid sender receiver (n + 1) (S.deliver (JSONTransportPacket.nack nack).wire) R'

theorem fireNack_log (t : Transport) (tid : JSString) :
    (complete (t.fireNack tid)).log = match t.states.get? tid with
      | none => t.log
      | some s => if s.emitted then t.log else
          .answered (.nack (Transport.buildNackPacket s)) :: t.log := by
  have states : (t.clearNackTimer tid).states = t.states := rfl
  rw [Transport.fireNack]
  simp only [states]
  cases t.states.get? tid with
  | none => rfl
  | some s =>
    cases he : s.emitted
    · simp only [he, Bool.false_eq_true, if_false]
      rfl
    · simp only [he, if_true]
      rfl

theorem fires_iff : Fires tid t nack ↔ tid ∈ t.nackTimers ∧ ∃ s, t.states.get? tid = some s ∧
    s.emitted = false ∧ nack = Transport.buildNackPacket s := by
  have longer (e : Effect) : t.log ≠ e :: t.log := List.ne_cons_self
  constructor
  · rintro ⟨armed, sent⟩
    refine ⟨armed, ?_⟩
    rw [fireNack_log] at sent
    cases hs : t.states.get? tid with
    | none =>
      rw [hs] at sent
      exact absurd sent (longer _)
    | some s =>
      rw [hs] at sent
      cases he : s.emitted with
      | true =>
        simp only [he, if_true] at sent
        exact absurd sent (longer _)
      | false =>
        simp only [he, Bool.false_eq_true, if_false, List.cons.injEq, Effect.answered.injEq,
          JSONTransportPacket.nack.injEq, and_true] at sent
        exact ⟨s, rfl, he, sent.symm⟩
  · rintro ⟨armed, s, hs, he, rfl⟩
    refine ⟨armed, ?_⟩
    rw [fireNack_log, hs]
    simp [he]

/-- The sender still has the message pending. -/
structure Pends (split : JSONSplitResult) (pending : PendingSend) (sender : Transport) : Prop where
  reliable : sender.reliable.isSome
  entry : sender.pendingSend.get? split.tid = some pending
  own : pending.split = split

theorem networkSends_frame (packets : List JSONTransportPacket) (t : Transport) :
    (packets.foldl Transport.networkSend t).log = (packets.map Effect.sent).reverse ++ t.log ∧
      (packets.foldl Transport.networkSend t).pendingSend = t.pendingSend ∧
      (packets.foldl Transport.networkSend t).reliable = t.reliable := by
  induction packets generalizing t with
  | nil => exact ⟨rfl, rfl, rfl⟩
  | cons p packets ih =>
    obtain ⟨log, kept⟩ := ih (t.networkSend p)
    refine ⟨?_, kept⟩
    rw [List.foldl_cons, log]
    simp [Transport.networkSend, Transport.record]

theorem Pends.deliver (h : Pends split pending S) (own : nack.tid = split.tid) :
    S.deliver (JSONTransportPacket.nack nack).wire =
      (Transport.nackAnswer pending nack).foldl Transport.networkSend S := by
  obtain ⟨o, mode⟩ := Option.isSome_iff_exists.mp h.reliable
  have open_ : ¬ (S.reliable.isNone = true ∧ Transport.isControl (.nack nack) = true) := by
    simp [mode]
  rw [Transport.deliver, Transport.receive_read (readPacket_wire (p := .nack nack) trivial),
    if_neg open_]
  have handled : S.acceptPacket (.nack nack) = S.handleNack nack := by
    simp only [Transport.acceptPacket, mode]
  rw [handled, Transport.complete_handleNack, own, h.entry]

theorem Pends.answers (h : Pends split pending S) (own : nack.tid = split.tid) :
    Answers S nack (Transport.nackAnswer pending nack) := by
  rw [Answers, h.deliver own]
  exact (networkSends_frame (Transport.nackAnswer pending nack) S).1

/-- **What the sender answers.** The message stays pending. -/
theorem Pends.replies (h : Pends split pending S) (own : nack.tid = split.tid)
    (answered : Answers S nack reply) : reply = Transport.nackAnswer pending nack ∧
      Pends split pending (S.deliver (JSONTransportPacket.nack nack).wire) := by
  obtain ⟨log, entries, mode⟩ := networkSends_frame (Transport.nackAnswer pending nack) S
  rw [Answers, h.deliver own, log, List.append_left_inj, List.reverse_inj] at answered
  constructor
  · apply List.map_injective_iff.mpr _ answered.symm
    intro p q same
    exact Effect.sent.inj same
  · rw [h.deliver own]
    refine ⟨?_, ?_, h.own⟩
    · rw [mode]
      exact h.reliable
    · rw [entries]
      exact h.entry

/-! ## Packets that are missing -/

/-- A packet that has not come, as it is or damaged. -/
def Lacked (split : JSONSplitResult) (l : List JSONTransportPacket) (q : JSONTransportPacket) :
    Prop :=
  ∃ p ∈ split.packets, p ∉ l ∧ Comes p q

theorem Lacked.missing (h : Lacked split l q) : Missing split l := by
  obtain ⟨p, hp, absent, -⟩ := h
  exact ⟨p, hp, absent⟩

theorem Lacked.mixed (h : Lacked split l q) (mixed : Mixed split l) : Mixed split (l ++ [q]) := by
  obtain ⟨p, hp, -, same⟩ := h
  intro x hx
  rw [List.mem_append, List.mem_singleton] at hx
  rcases hx with hx | rfl
  · exact mixed x hx
  · rcases same with rfl | garbled
    · exact .inl hp
    · exact .inr ⟨p, hp, garbled⟩

theorem Lacked.once (h : Lacked split l q) (there : .manifest split.manifest ∈ l) :
    q ≠ .manifest split.manifest := by
  obtain ⟨p, -, absent, rfl | ⟨c, c', -, rfl, -⟩⟩ := h
  · rintro rfl
    exact absent there
  · nofun

/-- The nack timer of the message is armed and its state is there. -/
structure Asks (tid : JSString) (t : Transport) : Prop where
  state : (t.view tid).state.isSome
  nack : (t.view tid).nack = true

/-- Where the receiver stands: it has a state of the message only while packets are
missing. -/
structure Recovering (split : JSONSplitResult) (doc : Json) (listeners : List Nat)
    (l : List JSONTransportPacket) (t : Transport) : Prop where
  strewn : Strewn split doc listeners l t
  reliable : t.reliable.isSome
  mixed : Mixed split l
  closed : ¬ Missing split l → (t.view split.tid).state = none

/-- While packets are missing, nothing was assembled. -/
theorem Recovering.waits (h : Recovering split doc listeners l t) (made : MadeOf cid split pieces doc)
    (valid : validateManifest split.manifest = none) (missing : Missing split l) :
    Gathering split listeners l (t.view split.tid) := by
  have sound := (validateManifest_none made).mp valid
  cases h.strewn.stands with
  | unsound bad => exact absurd valid bad
  | waiting _ waits => exact waits
  | heard _ _ _ due => exact absurd missing ((h.mixed.due_iff made sound).mp due)

/-- **One packet.** The timer is armed unless it was the last one. -/
theorem Recovering.packet (h : Recovering split doc listeners l t)
    (made : MadeOf cid split pieces doc) (valid : validateManifest split.manifest = none)
    (nodup : listeners.Nodup) (live : t.expiredPartials = []) (lacked : Lacked split l q) :
    Recovering split doc listeners (l ++ [q]) (t.deliver q.wire) ∧
      (Missing split (l ++ [q]) → Asks split.tid (t.deliver q.wire)) := by
  have sound := (validateManifest_none made).mp valid
  have mixed := lacked.mixed h.mixed
  have bound := mixed.bound made
  have own := bound q (by simp)
  have tid := own.tid made
  have waits := h.waits made valid lacked.missing
  have strewn := h.strewn.packet made nodup live bound fun _ => lacked.once
  have mode : (t.deliver q.wire).reliable.isSome := by
    rw [(Transport.deliver_fixed t q.wire).reliable]
    exact h.reliable
  obtain rfl := h.strewn.listening
  obtain ⟨s, reports, out, absorbed, -, yields⟩ := waits.absorb made valid bound lacked.once
  have fresh := waits.fresh
  rw [← tid] at fresh absorbed
  cases out with
  | none =>
    have view := Transport.deliver_waiting (own.wf made) own.data (.inr fresh) live absorbed
    rw [tid] at view
    refine ⟨⟨strewn, mode, mixed, fun all => ?_⟩, fun _ => ⟨?_, ?_⟩⟩
    · have due := (mixed.due_iff made sound).mpr all
      cases yields.doc due (mixed.harmless made sound all)
    · rw [view]
      rfl
    · rw [view, View.awaiting, h.reliable]
      rfl
  | some j =>
    obtain ⟨gone, -⟩ :=
      Transport.deliver_last (own.wf made) own.data (.inr fresh) live nodup absorbed
    rw [tid] at gone
    have all := (mixed.due_iff made sound).mp (yields.due j rfl).1
    exact ⟨⟨strewn, mode, mixed, fun _ => gone⟩, fun missing => absurd missing all⟩

theorem Recovering.kept (h : Recovering split doc listeners l t)
    (strewn : Strewn split doc listeners l t') (reliable : t'.reliable = t.reliable)
    (state : (t'.view split.tid).state = (t.view split.tid).state) :
    Recovering split doc listeners l t' := by
  refine ⟨strewn, ?_, h.mixed, fun all => ?_⟩
  · rw [reliable]
    exact h.reliable
  · rw [state]
    exact h.closed all

theorem Asks.lapse (h : Asks tid t) (lapse : View.Lapse tid (t.view tid) (t'.view tid)) :
    Asks tid t' := by
  constructor
  · rw [lapse.state_eq]
    exact h.state
  · rw [lapse.nack_eq]
    exact h.nack

/-- **Packets that are missing, in any order.** -/
theorem Recovering.batch (h : Recovering split doc listeners l t)
    (made : MadeOf cid split pieces doc) (valid : validateManifest split.manifest = none)
    (nodup : listeners.Nodup) (run : Run Transport.input Unfired t is t')
    (texts : is.filterMap Input.text? = ps.map JSONTransportPacket.wire)
    (lacked : ∀ m q, m ++ [q] <+: ps → Lacked split (l ++ m) q) :
    Recovering split doc listeners (l ++ ps) t' ∧
      (ps ≠ [] → Missing split (l ++ ps) → Asks split.tid t') := by
  apply run_arrivals (fun m t => Recovering split doc listeners (l ++ m) t ∧
    (m ≠ [] → Missing split (l ++ m) → Asks split.tid t)) _ _ _ _ (fun _ _ h => h.1) run texts
    (List.nil_append ps)
  · rw [List.append_nil]
    exact ⟨h, fun some => absurd rfl some⟩
  · intro m t q ⟨before, _⟩ live pre
    obtain ⟨after, asks⟩ := before.packet made valid nodup live (lacked m q pre)
    rw [List.append_assoc] at after asks
    exact ⟨after, fun _ => asks⟩
  · intro m t x _ good
    exact absurd rfl (good.2 x)
  · intro m t ⟨before, asks⟩ live
    have lapse : View.Lapse split.tid (t.view split.tid) (t.cleanup.view split.tid) := by
      apply Transport.view_cleanup_live
      rw [live]
      exact List.not_mem_nil
    exact ⟨before.kept (before.strewn.cleanup live) Transport.receives_cleanup.reliable
      lapse.state_eq, fun some missing => (asks some missing).lapse lapse⟩
  · intro m t n ⟨before, asks⟩
    exact ⟨before.kept (before.strewn.advance n) rfl rfl,
      fun some missing => ⟨(asks some missing).state, (asks some missing).nack⟩⟩

/-! ## Rounds -/

/-- The nack is about the message. -/
theorem Strewn.nack_tid (h : Strewn split doc listeners l R) (fires : Fires split.tid R nack) :
    nack.tid = split.tid := by
  obtain ⟨-, s, hs, -, rfl⟩ := fires_iff.mp fires
  have own := h.keyed split.tid s hs
  rw [Transport.buildNackPacket]
  split <;> exact own

theorem Recovering.fireNack (h : Recovering split doc listeners l t) :
    Recovering split doc listeners l (complete (t.fireNack split.tid)) := by
  apply h.kept (h.strewn.fireNack split.tid) (Transport.fireNack_receives t split.tid).reliable
  rw [Transport.view_fireNack (h.strewn.keyed split.tid), if_pos rfl]
  exact (fireNack_frame _).1

/-- The timer fires only while packets are missing. -/
theorem Recovering.missing (h : Recovering split doc listeners l R)
    (fires : Fires split.tid R nack) : Missing split l := by
  obtain ⟨-, s, hs, -⟩ := fires_iff.mp fires
  by_contra all
  have gone : R.states.get? split.tid = none := h.closed all
  rw [gone] at hs
  cases hs

/-- As long as packets are missing, there is a next round. -/
theorem Recovering.fires (h : Recovering split doc listeners l R) (made : MadeOf cid split pieces doc)
    (valid : validateManifest split.manifest = none) (missing : Missing split l)
    (asks : Asks split.tid R) : ∃ nack, Fires split.tid R nack := by
  obtain ⟨s, hs⟩ := Option.isSome_iff_exists.mp asks.state
  have buffered := (h.waits made valid missing).buffered
  rw [hs] at buffered
  exact ⟨_, fires_iff.mpr ⟨of_decide_eq_true asks.nack, s, hs, buffered.waiting, rfl⟩⟩

/-- **One round.** It brings the manifest, or else everything that is missing. -/
theorem Recovering.round (h : Recovering split doc listeners l R) (made : MadeOf cid split pieces doc)
    (valid : validateManifest split.manifest = none) (nodup : listeners.Nodup)
    (pends : Pends split pending S) (fires : Fires split.tid R nack)
    (answered : Answers S nack reply) (order : ps.Perm reply)
    (texts : is.filterMap Input.text? = ps.map JSONTransportPacket.wire)
    (run : Run Transport.input Unfired (complete (R.fireNack split.tid)) is R') :
    Recovering split doc listeners (l ++ ps) R' ∧
      (Missing split (l ++ ps) → Asks split.tid R') ∧
      .manifest split.manifest ∈ l ++ ps ∧
      (.manifest split.manifest ∈ l → ¬ Missing split (l ++ ps)) := by
  have sound := (validateManifest_none made).mp valid
  have missing := h.missing fires
  obtain ⟨rfl, -⟩ := pends.replies (h.strewn.nack_tid fires) answered
  obtain ⟨-, s, hs, -, rfl⟩ := fires_iff.mp fires
  have buffered := (h.waits made valid missing).buffered
  have state : (R.view split.tid).state = some s := hs
  rw [state] at buffered
  change Buffered split l s at buffered
  obtain ⟨new, manifest, rest⟩ := buffered.answer made sound h.mixed pends.own
  have known : ∀ m, s.manifest = some m → m = split.manifest := by
    intro m hm
    rw [buffered.manifest] at hm
    split at hm
    · exact (Option.some.inj hm).symm
    · cases hm
  have distinct := order.nodup_iff.mpr (nackAnswer_nodup made sound pends.own known)
  obtain ⟨after, asks⟩ := h.fireNack.batch made valid nodup run texts fun m q pre => by
    obtain ⟨mem, fresh⟩ := fresh_of_prefix distinct pre
    obtain ⟨own, absent⟩ := new q (order.mem_iff.mp mem)
    refine ⟨q, own, ?_, .inl rfl⟩
    rw [List.mem_append]
    rintro (came | came)
    · exact absent came
    · exact fresh came
  have came : .manifest split.manifest ∈ l ++ ps := by
    rw [List.mem_append]
    by_cases there : .manifest split.manifest ∈ l
    · exact .inl there
    · exact .inr (order.mem_iff.mpr (manifest there))
  have whole : .manifest split.manifest ∈ l → ¬ Missing split (l ++ ps) := by
    intro there
    rw [not_missing]
    intro p hp
    rw [List.mem_append]
    exact (rest there p hp).imp_right order.mem_iff.mpr
  refine ⟨after, fun lacks => asks ?_ lacks, came, whole⟩
  rintro rfl
  rw [List.append_nil] at came whole
  exact whole came missing

/-- **Any number of rounds.** After one the manifest is there, after two nothing is
missing. -/
theorem Rounds.recovering (rounds : Rounds split.tid S R n S' R')
    (made : MadeOf cid split pieces doc) (valid : validateManifest split.manifest = none)
    (nodup : listeners.Nodup) (pends : Pends split pending S)
    (h : Recovering split doc listeners l R) (asks : Missing split l → Asks split.tid R) :
    ∃ l', Recovering split doc listeners l' R' ∧ (Missing split l' → Asks split.tid R') ∧
      Pends split pending S' ∧ (1 ≤ n → .manifest split.manifest ∈ l') ∧
      (2 ≤ n → ¬ Missing split l') := by
  induction rounds with
  | start => exact ⟨l, h, asks, pends, by omega, by omega⟩
  | next before fires answered order texts run ih =>
    obtain ⟨l', h', -, pends', once, twice⟩ := ih
    obtain ⟨after, asks', came, whole⟩ :=
      h'.round made valid nodup pends' fires answered order texts run
    have still := (pends'.replies (h'.strewn.nack_tid fires) answered).2
    refine ⟨_, after, asks', still, fun _ => came, fun more => ?_⟩
    exact whole (once (by omega))

/-- A message whose manifest is refused is asked for again and again. -/
theorem Rounds.strewn (rounds : Rounds split.tid S R n S' R')
    (made : MadeOf cid split pieces doc) (bad : validateManifest split.manifest ≠ none)
    (nodup : listeners.Nodup) (pends : Pends split pending S)
    (h : Strewn split doc listeners l R) (bound : ∀ q ∈ l, Bound split q) :
    ∃ l', Strewn split doc listeners l' R' ∧ (∀ q ∈ l', Bound split q) ∧
      Pends split pending S' := by
  induction rounds with
  | start => exact ⟨l, h, bound, pends⟩
  | @next n S₁ R₁ R' nack reply ps is before fires answered order texts run ih =>
    obtain ⟨l', h', bound', pends'⟩ := ih
    obtain ⟨rfl, still⟩ := pends'.replies (h'.nack_tid fires) answered
    have own : ∀ q ∈ l' ++ ps, Bound split q := by
      intro q hq
      rw [List.mem_append] at hq
      rcases hq with hq | hq
      · exact bound' q hq
      · obtain ⟨-, s, -, -, rfl⟩ := fires_iff.mp fires
        left
        rw [← pends'.own]
        exact (nackAnswer_lacking pending s q (order.mem_iff.mp hq)).1
    exact ⟨_, (h'.fireNack split.tid).run made nodup (fun _ _ good => good.1) run texts own
      (fun valid => absurd valid bad), own, still⟩

/-! ## Both rounds -/

variable {sent : List JSONTransportPacket} {arrive : JSONTransportPacket → JSONTransportPacket}

/-- No packet of the message is a damaged one. -/
theorem not_garbled (made : MadeOf cid split pieces doc) {p : JSONTransportPacket}
    (hq : q ∈ split.packets) : ¬ Garbled p q := by
  rintro ⟨c, c', -, rfl, -, -, -, -, -, wrong⟩
  have own : c' ∈ split.chunks := by simpa using mem_splitPackets.mp hq
  exact wrong (chunk_hash made own)

/-- Each packet comes once. -/
theorem lacked_once (made : MadeOf cid split pieces doc) (nodup : sent.Nodup)
    (part : ∀ p ∈ sent, p ∈ split.packets ∧ Comes p (arrive p)) :
    ∀ m q, m ++ [q] <+: sent.map arrive → Lacked split m q := by
  rintro m q ⟨rest, cut⟩
  obtain ⟨before, later, rfl, came, rfl⟩ := List.map_eq_append_iff.mp cut.symm
  obtain ⟨before, last, rfl, rfl, one⟩ := List.map_eq_append_iff.mp came
  obtain ⟨p, rfl, rfl⟩ := List.map_eq_singleton_iff.mp one
  obtain ⟨own, how⟩ := part p (by simp)
  refine ⟨p, own, fun again => ?_, how⟩
  obtain ⟨p', hp', same⟩ := List.mem_map.mp again
  rcases (part p' (by simp [hp'])).2 with whole | garbled
  · obtain rfl := whole.symm.trans same
    rw [List.append_assoc, List.nodup_append] at nodup
    exact nodup.2.2 p' hp' p' (by simp) rfl
  · rw [same] at garbled
    exact not_garbled made own garbled

/-- **Which messages the nacks recover.** A reliable receiver gets some packets of a
message, at least one, in any order, some chunks of them damaged. While the sender has the
message pending the receiver's nack timer fires and the sender's answer comes in any order,
again and again. After two such rounds, or when the timer no longer fires, each listener
has heard what was sent exactly if it survives the copy and its chunk ids are distinct.
Each answer has packets of the message only, none of which the receiver had. -/
theorem nacks_recover {data : JSValue} {options : SplitOptions} {ids : Ids} (wf : data.Wf)
    (container : data.isContainer = true) (cut : splitJSON data options ids = some split)
    {own : SplitOptions} {partialTtlMs now : Nat} {mode : ReliableOptions} (some_ : sent ≠ [])
    (nodup : sent.Nodup) (part : ∀ p ∈ sent, p ∈ split.packets ∧ Comes p (arrive p))
    (texts : is.filterMap Input.text? = (sent.map arrive).map JSONTransportPacket.wire)
    (run : Run Transport.input Unfired (.listening own partialTtlMs (some mode) now listeners) is R)
    (pends : Pends split pending S) (rounds : Rounds split.tid S R n S' R')
    (mem : listener ∈ listeners) :
    ((2 ≤ n ∨ ∀ nack, ¬ Fires split.tid R' nack) →
      (R'.heard listener = data.raw.toList ↔ data.Survives options ids)) ∧
    ∀ nack, Fires split.tid R' nack → ∃ reply, Answers S' nack reply ∧ ∀ p ∈ reply,
      p.tid = split.tid ∧ p ∈ split.packets ∧
        ∀ s, R'.states.get? split.tid = some s → s.got p = false := by
  obtain ⟨pieces, doc, copied, made, spots, -⟩ := splitJSON_madeOf wf container cut
  have distinct : (Transport.listening own partialTtlMs (some mode) now listeners).listeners.Nodup :=
    onMessage_nodup listeners .nil
  have there := onMessage_mem (t := .create own partialTtlMs (some mode) now) listeners (.inl mem)
  have start := strewn_start split doc own partialTtlMs now (some mode) listeners
  have lacked := lacked_once made nodup part
  -- what holds whether the message is sound or not
  have answers {l : List JSONTransportPacket} (h : Strewn split doc
      (Transport.listening own partialTtlMs (some mode) now listeners).listeners l R')
      (still : Pends split pending S') : ∀ nack, Fires split.tid R' nack → ∃ reply,
        Answers S' nack reply ∧ ∀ p ∈ reply, p.tid = split.tid ∧ p ∈ split.packets ∧
          ∀ s, R'.states.get? split.tid = some s → s.got p = false := by
    intro nack fires
    refine ⟨_, still.answers (h.nack_tid fires), ?_⟩
    obtain ⟨-, s, hs, -, rfl⟩ := fires_iff.mp fires
    intro p hp
    obtain ⟨mem, lacks⟩ := nackAnswer_lacking pending s p hp
    rw [still.own] at mem
    refine ⟨made.packets_tid p mem, mem, fun s' hs' => ?_⟩
    obtain rfl : s = s' := Option.some.inj (hs.symm.trans hs')
    exact lacks
  cases valid : validateManifest split.manifest with
  | none =>
    have sound := (validateManifest_none made).mp valid
    have begun : Recovering split doc
        (Transport.listening own partialTtlMs (some mode) now listeners).listeners []
        (.listening own partialTtlMs (some mode) now listeners) := by
      refine ⟨start, ?_, fun q hq => absurd hq List.not_mem_nil, fun _ => ?_⟩
      · rw [listening_mode]
        rfl
      · obtain ⟨states, -⟩ := listening_idle own partialTtlMs (some mode) now listeners
        rw [Transport.view, states]
        rfl
    obtain ⟨after, asks⟩ := begun.batch made valid distinct run texts lacked
    obtain ⟨l, last, asks', still, -, whole⟩ := rounds.recovering made valid distinct pends after
      (asks (by simpa using some_))
    refine ⟨fun ended => ?_, answers last.strewn still⟩
    have all : ¬ Missing split l := by
      rcases ended with twice | silent
      · exact whole twice
      · intro missing
        obtain ⟨nack, fires⟩ := last.fires made valid missing (asks' missing)
        exact silent nack fires
    apply survives_iff wf copied made spots
    · intro _
      exact (last.strewn.heard_iff made there valid (not_missing.mp all)).mpr
        (last.mixed.harmless made sound all)
    · exact fun unsound => absurd sound unsound
  | some r =>
    have bad : validateManifest split.manifest ≠ none := by
      rw [valid]
      exact Option.some_ne_none r
    have mixed : Mixed split (sent.map arrive) := by
      intro q hq
      obtain ⟨p, hp, rfl⟩ := List.mem_map.mp hq
      obtain ⟨own, same | garbled⟩ := part p hp
      · exact .inl (by rwa [same])
      · exact .inr ⟨p, own, garbled⟩
    have after := start.run made distinct (fun _ _ good => good.1) run texts
      (by simpa using mixed.bound made) fun valid => absurd valid bad
    obtain ⟨l, last, -, still⟩ := rounds.strewn made bad distinct pends after
      (by simpa using mixed.bound made)
    refine ⟨fun _ => ?_, answers last still⟩
    apply survives_iff wf copied made spots
    · exact fun sound => absurd ((validateManifest_none made).mpr sound) bad
    · exact fun _ => last.heard_bad there bad

/-! A string of two chunks, one of them damaged, and a key that the copy drops. -/

/-- The packets come one after the other. -/
def Transport.given (t : Transport) (ps : List JSONTransportPacket) : Transport :=
  ps.foldl (fun t q => t.deliver q.wire) t

theorem run_given {ps : List JSONTransportPacket} (good : allGood Transport.input Unfired t
    (ps.map fun q => .packet q.wire) = true) :
    Run Transport.input Unfired t (ps.map fun q => .packet q.wire) (t.given ps) := by
  induction ps generalizing t with
  | nil => exact .nil t
  | cons q ps ih =>
    rw [List.map_cons, allGood] at good
    simp only [Transport.input, Bool.and_eq_true, decide_eq_true_eq] at good
    exact .cons good.1 rfl (ih good.2)

theorem texts_given (ps : List JSONTransportPacket) :
    (ps.map fun q => Input.packet q.wire).filterMap Input.text? =
      ps.map JSONTransportPacket.wire := by
  simp [List.filterMap_map, Function.comp_def, Input.text?]

/-- What the nack of this receiver is answered. -/
def Transport.answerTo (receiver : Transport) (pending : PendingSend) : List JSONTransportPacket :=
  ((receiver.states.get? pending.split.tid).map fun s =>
    Transport.nackAnswer pending (Transport.buildNackPacket s)).getD []

/-- A round whose answer comes in the order it was sent. -/
theorem Pends.round (h : Pends split pending S)
    (ready : (decide (split.tid ∈ R.nackTimers) && (R.states.get? split.tid).any fun s =>
      !s.emitted && decide ((Transport.buildNackPacket s).tid = split.tid)) = true)
    (good : allGood Transport.input Unfired (complete (R.fireNack split.tid))
      ((R.answerTo pending).map fun q => .packet q.wire) = true) :
    ∃ S', Rounds split.tid S R 1 S' ((complete (R.fireNack split.tid)).given (R.answerTo pending)) := by
  simp only [Bool.and_eq_true, decide_eq_true_eq, Option.any_eq_true, Bool.not_eq_true'] at ready
  obtain ⟨armed, s, hs, waiting, own⟩ := ready
  have reply : R.answerTo pending = Transport.nackAnswer pending (Transport.buildNackPacket s) := by
    rw [Transport.answerTo, h.own, hs]
    rfl
  rw [reply] at good ⊢
  exact ⟨_, .next .start (fires_iff.mpr ⟨armed, s, hs, waiting, rfl⟩) (h.answers own) (.refl _)
    (texts_given _) (run_given good)⟩

/-- A sender whose message is registered, and its pending entry. -/
def registered (options : SplitOptions) (data : JSValue) (split : JSONSplitResult) : Transport :=
  (Transport.create options DEFAULT_PARTIAL_TTL_MS (some .default) 0).register data split

def registeredPending (split : JSONSplitResult) : PendingSend := ⟨split, 0, 0, 0⟩

theorem registered_pends (options : SplitOptions) (data : JSValue) (split : JSONSplitResult) :
    Pends split (registeredPending split) (registered options data split) :=
  ⟨rfl, Dict.get?_set_self _ _ _, rfl⟩

/-- Every chunk is damaged but the last of its ref. -/
def damaged : JSONTransportPacket → JSONTransportPacket
  | .chunk c => if c.index + 1 = c.total then .chunk c else .chunk { c with data := lit "x" }
  | p => p

theorem note_damaged : ∀ p ∈ note.split.packets, p ∈ note.split.packets ∧ Comes p (damaged p) := by
  have wrong : ∀ c ∈ note.split.chunks, c.hash ≠ hashString (lit "x") := by decide +kernel
  intro p hp
  refine ⟨hp, ?_⟩
  cases p with
  | chunk c =>
    rw [damaged]
    split
    · exact .inl rfl
    · have own : c ∈ note.split.chunks := by simpa using mem_splitPackets.mp hp
      exact .inr ⟨c, { c with data := lit "x" }, rfl, rfl, rfl, rfl, rfl, rfl, rfl, wrong c own⟩
  | _ => exact .inl rfl

/-- A reliable receiver to which these packets came. -/
def receiverOf (ps : List JSONTransportPacket) : Transport :=
  (Transport.listening .default DEFAULT_PARTIAL_TTL_MS (some .default) 0 [0]).given ps

/-- The receiver of the note after one round. -/
def noteRecovered : Transport :=
  (complete ((receiverOf (note.split.packets.map damaged)).fireNack note.split.tid)).given
    ((receiverOf (note.split.packets.map damaged)).answerTo (registeredPending note.split))

theorem nacks_recover_note : ∃ S', Rounds note.split.tid
      (registered noteOptions (.ofJson note.value) note.split)
      (receiverOf (note.split.packets.map damaged)) 1 S' noteRecovered ∧
    noteRecovered.heard 0 = (JSValue.ofJson note.value).raw.toList := by
  have run : Run Transport.input Unfired
      (.listening .default DEFAULT_PARTIAL_TTL_MS (some .default) 0 [0])
      ((note.split.packets.map damaged).map fun q => .packet q.wire)
      (receiverOf (note.split.packets.map damaged)) :=
    run_given (by decide +kernel)
  have pends := registered_pends noteOptions (.ofJson note.value) note.split
  obtain ⟨S', rounds⟩ := pends.round (R := receiverOf (note.split.packets.map damaged))
    (by decide +kernel) (by decide +kernel)
  have survives : (JSValue.ofJson note.value).Survives noteOptions noteIds :=
    ⟨by decide +kernel, by decide +kernel, by decide +kernel⟩
  have recovers := nacks_recover (JSValue.wf_ofJson note.wf) rfl note.made (by decide +kernel)
    (by decide +kernel) note_damaged (texts_given _) run pends rounds (List.mem_singleton.mpr rfl)
  refine ⟨S', rounds, (recovers.1 (.inr fun nack fires => ?_)).mpr survives⟩
  obtain ⟨-, s, hs, -⟩ := fires_iff.mp fires
  have gone : (noteRecovered.states.get? note.split.tid).isNone = true := by decide +kernel
  rw [noteRecovered, hs] at gone
  cases gone

/-- A message with an own key `__proto__`. -/
def shadowed : Json := .obj [(PROTO, .str (lit "x"))]

theorem shadowed_splits : (splitJSON (.ofJson shadowed) .default noteIds).isSome = true := by
  decide +kernel

def shadowedSplit : JSONSplitResult :=
  (splitJSON (.ofJson shadowed) .default noteIds).get shadowed_splits

/-- The end of the message comes, then the manifest that is asked for. -/
def shadowedRecovered : Transport :=
  (complete ((receiverOf [.complete shadowedSplit.tid]).fireNack shadowedSplit.tid)).given
    ((receiverOf [.complete shadowedSplit.tid]).answerTo (registeredPending shadowedSplit))

/-- The nacks recover another value. -/
theorem proto_is_not_recovered :
    ¬ ∀ (data : Json) (split : JSONSplitResult) (pending : PendingSend)
        (sent : List JSONTransportPacket) (R S S' R' : Transport) (n : Nat),
      data.Wf → (JSValue.ofJson data).isContainer = true →
      splitJSON (.ofJson data) .default noteIds = some split → sent ≠ [] → sent.Nodup →
      (∀ p ∈ sent, p ∈ split.packets) →
      Run Transport.input Unfired
        (.listening .default DEFAULT_PARTIAL_TTL_MS (some .default) 0 [0])
        (sent.map fun q => .packet q.wire) R →
      Pends split pending S → Rounds split.tid S R n S' R' →
      (2 ≤ n ∨ ∀ nack, ¬ Fires split.tid R' nack) → R'.heard 0 = [data] := by
  intro h
  have run : Run Transport.input Unfired
      (.listening .default DEFAULT_PARTIAL_TTL_MS (some .default) 0 [0])
      ([JSONTransportPacket.complete shadowedSplit.tid].map fun q => .packet q.wire)
      (receiverOf [.complete shadowedSplit.tid]) :=
    run_given (by decide +kernel)
  have pends := registered_pends .default (.ofJson shadowed) shadowedSplit
  obtain ⟨S', rounds⟩ := pends.round (R := receiverOf [.complete shadowedSplit.tid])
    (by decide +kernel) (by decide +kernel)
  have gone : (shadowedRecovered.states.get? shadowedSplit.tid).isNone = true := by decide +kernel
  have same : shadowedRecovered.heard 0 = [shadowed] := by
    apply h shadowed shadowedSplit _ [.complete shadowedSplit.tid] _ _ _ _ 1 _ rfl
      (Option.some_get shadowed_splits).symm (by decide +kernel) (by decide +kernel)
      (by decide +kernel) run pends rounds
    · right
      intro nack fires
      obtain ⟨-, s, hs, -⟩ := fires_iff.mp fires
      rw [shadowedRecovered, hs] at gone
      cases gone
    · simp [shadowed, Json.wf_obj]
  have other : shadowedRecovered.heard 0 ≠ [shadowed] := by decide +kernel
  exact other same

end LemonModel
