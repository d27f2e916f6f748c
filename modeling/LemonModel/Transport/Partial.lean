import LemonModel.Transport.Pieces
import LemonModel.Transport.Receive

/-!
# A message on its way in

What the packets of one split message do to the partial state of its tid, in any
order: `absorb_genuine` says that a packet adds itself and nothing else, and that
the message is there with the last one.
-/

namespace LemonModel

open Text

/-- The packet has been taken in. -/
def JSONReceiveState.got (s : JSONReceiveState) : JSONTransportPacket → Bool
  | .manifest m => s.manifest = some m
  | .chunk c => s.chunk? c.cid c.index = some c
  | .complete _ => s.complete
  | _ => false

@[simp] theorem got_manifest (s : JSONReceiveState) (m : JSONManifestPacket) :
    s.got (.manifest m) = true ↔ s.manifest = some m := decide_eq_true_iff

@[simp] theorem got_chunk (s : JSONReceiveState) (c : JSONChunkPacket) :
    s.got (.chunk c) = true ↔ s.chunk? c.cid c.index = some c := decide_eq_true_iff

@[simp] theorem got_complete (s : JSONReceiveState) (tid : JSString) :
    s.got (.complete tid) = s.complete := rfl

/-- Every packet of the message has been taken in. -/
def JSONReceiveState.full (s : JSONReceiveState) (split : JSONSplitResult) : Bool :=
  split.packets.all s.got

/-- A partial state that holds nothing but packets of `split`. -/
structure Genuine (split : JSONSplitResult) (s : JSONReceiveState) : Prop where
  manifest : ∀ m, s.manifest = some m → m = split.manifest
  chunk : ∀ cid index c, s.chunk? cid index = some c →
    c ∈ split.chunks ∧ c.cid = cid ∧ c.index = index
  waiting : s.emitted = false

theorem genuine_fresh (split : JSONSplitResult) (tid : JSString) (now : Nat) :
    Genuine split (.fresh tid now) :=
  ⟨by rintro m ⟨⟩, by rintro cid index c ⟨⟩, rfl⟩

/-- The pieces can be told apart and none is below `__proto__`. -/
structure Sound (pieces : List Piece) : Prop where
  cids : (pieces.map Piece.cid).Nodup
  clear : ∀ p ∈ pieces, PROTO ∉ p.place

variable {cid : Nat → JSString} {split : JSONSplitResult} {pieces : List Piece} {doc : Json}
  {s : JSONReceiveState}

/-! ## The manifest -/

theorem ref_cids (path : JSString) (pieces : List Piece) :
    (pieces.map (Piece.ref path)).map JSONChunkRef.cid = pieces.map Piece.cid := by
  rw [List.map_map]
  rfl

theorem marker_mark (p : Piece) : isJSONRefMarker (some p.mark) = some p.cid := by
  simp [isJSONRefMarker, Piece.mark, prop?_cons, Json.str?]

theorem getByJSONPointer_ref (root : Json) (p : Piece) :
    getByJSONPointer root (p.ref []).path = walk root p.place := by
  simp [getByJSONPointer, Piece.ref]

/-- The check of `validateManifest`, piece by piece. -/
theorem validateRefs_none {root : Json} {pieces : List Piece} {seen : List JSString}
    (marked : ∀ p ∈ pieces, walk root p.place = if PROTO ∈ p.place then none else some p.mark) :
    validateRefs root seen (pieces.map (Piece.ref [])) = none ↔
      (∀ p ∈ pieces, PROTO ∉ p.place) ∧ (pieces.map Piece.cid).Nodup ∧
        ∀ p ∈ pieces, p.cid ∉ seen := by
  induction pieces generalizing seen with
  | nil => simp [validateRefs]
  | cons p pieces ih =>
    have rest := @ih (p.cid :: seen) fun q hq => marked q (List.mem_cons_of_mem _ hq)
    rw [List.map_cons, validateRefs, getByJSONPointer_ref, marked p List.mem_cons_self]
    change (if p.cid ∈ seen then _ else _) = _ ↔ _
    by_cases hseen : p.cid ∈ seen
    · simp [hseen]
    · by_cases hproto : PROTO ∈ p.place
      · have : isJSONRefMarker none ≠ some (p.ref []).cid := by simp [isJSONRefMarker]
        simp [hseen, hproto, this]
      · have same : ¬ isJSONRefMarker (some p.mark) ≠ some (p.ref []).cid := by
          rw [marker_mark]
          simp [Piece.ref]
        rw [if_neg hseen, if_neg hproto, if_neg same]
        change validateRefs root (p.cid :: seen) _ = none ↔ _
        rw [rest, List.forall_mem_cons, List.forall_mem_cons, List.map_cons, List.nodup_cons]
        simp only [List.mem_cons, not_or, List.mem_map, not_exists, not_and]
        constructor
        · rintro ⟨clear, nodup, fresh⟩
          exact ⟨⟨hproto, clear⟩, ⟨fun q hq => (fresh q hq).1, nodup⟩, hseen,
            fun q hq => (fresh q hq).2⟩
        · rintro ⟨⟨_, clear⟩, ⟨other, nodup⟩, _, fresh⟩
          exact ⟨clear, nodup, fun q hq => ⟨other q hq, fresh q hq⟩⟩

theorem validateManifest_none (made : MadeOf cid split pieces doc) :
    validateManifest split.manifest = none ↔ Sound pieces := by
  rw [validateManifest, made.refs, validateRefs_none made.mends.marked]
  constructor
  · rintro ⟨clear, nodup, _⟩
    exact ⟨nodup, clear⟩
  · intro sound
    exact ⟨sound.clear, sound.cids, by simp⟩

/-! ## The chunks -/

/-- Pieces with one chunk id are one piece. -/
theorem Sound.eq (sound : Sound pieces) {p q : Piece} (hp : p ∈ pieces) (hq : q ∈ pieces)
    (h : p.cid = q.cid) : p = q :=
  List.inj_on_of_nodup_map sound.cids hp hq h

theorem Sound.find (sound : Sound pieces) {p : Piece} (hp : p ∈ pieces) :
    (pieces.map (Piece.ref [])).find? (·.cid = p.cid) = some (p.ref []) := by
  obtain ⟨ref, hfind⟩ := Option.isSome_iff_exists.mp
    (List.find?_isSome.mpr ⟨p.ref [], List.mem_map_of_mem hp, by simp [Piece.ref]⟩ :
      ((pieces.map (Piece.ref [])).find? (·.cid = p.cid)).isSome)
  obtain ⟨q, hq, rfl⟩ := List.mem_map.mp (List.mem_of_find?_eq_some hfind)
  have found := List.find?_some hfind
  have same : q.cid = p.cid := of_decide_eq_true found
  rw [hfind, sound.eq hq hp same]

theorem validateChunk_none (made : MadeOf cid split pieces doc) (sound : Sound pieces)
    {c : JSONChunkPacket} (hc : c ∈ split.chunks) :
    validateChunkForManifest split.manifest c = none := by
  obtain ⟨p, hp, index, h, eq⟩ := (made.chunks c).mp hc
  have hcid : c.cid = p.cid := by
    rw [eq]
    rfl
  have htotal : c.total = p.parts.length := by
    rw [eq]
    rfl
  rw [validateChunkForManifest, hcid, made.refs, sound.find hp, htotal]
  simp [Piece.ref]

theorem chunk_hash (made : MadeOf cid split pieces doc) {c : JSONChunkPacket}
    (hc : c ∈ split.chunks) : c.hash = hashString c.data := by
  obtain ⟨p, _, index, h, rfl⟩ := (made.chunks c).mp hc
  rfl

/-- A chunk of the message is known by its chunk id and index. -/
theorem chunk_eq (made : MadeOf cid split pieces doc) (sound : Sound pieces)
    {c c' : JSONChunkPacket} (hc : c ∈ split.chunks) (hc' : c' ∈ split.chunks)
    (hcid : c.cid = c'.cid) (hindex : c.index = c'.index) : c = c' := by
  obtain ⟨p, hp, i, h, rfl⟩ := (made.chunks c).mp hc
  obtain ⟨p', hp', i', h', rfl⟩ := (made.chunks c').mp hc'
  obtain rfl : p = p' := sound.eq hp hp' hcid
  obtain rfl : i = i' := hindex
  rfl

theorem Genuine.got_of_some (g : Genuine split s) (made : MadeOf cid split pieces doc)
    (sound : Sound pieces) {c : JSONChunkPacket} (hc : c ∈ split.chunks) :
    s.got (.chunk c) = (s.chunk? c.cid c.index).isSome := by
  cases h : s.chunk? c.cid c.index with
  | none => simp [JSONReceiveState.got, h]
  | some c' =>
    obtain ⟨hc', hcid, hindex⟩ := g.chunk _ _ _ h
    obtain rfl := chunk_eq made sound hc' hc hcid hindex
    simp [JSONReceiveState.got, h]

theorem validateBuffered_none (g : Genuine split s) (made : MadeOf cid split pieces doc)
    (sound : Sound pieces) : validateBufferedChunks split.manifest s = none := by
  rw [validateBufferedChunks, List.findSome?_eq_none_iff]
  intro c hc
  obtain ⟨⟨x, byIndex⟩, he, hc⟩ := List.mem_flatMap.mp hc
  obtain ⟨⟨i, c'⟩, hi, rfl⟩ := List.mem_map.mp hc
  have buffered : s.chunk? x i = some c' := by
    rw [JSONReceiveState.chunk?, Dict.get?_eq_some.mpr he, Option.bind_some,
      Dict.get?_eq_some.mpr hi]
  exact validateChunk_none made sound (g.chunk x i c' buffered).1

/-! ## Reassembly -/

/-- The chunks of one piece, as they are buffered. -/
theorem Genuine.buffered (g : Genuine split s) (made : MadeOf cid split pieces doc)
    (sound : Sound pieces) {p : Piece} (hp : p ∈ pieces) {byIndex : Dict Nat JSONChunkPacket}
    (h : s.chunks.get? p.cid = some byIndex) {index : Nat} {c : JSONChunkPacket}
    (hc : byIndex.get? index = some c) : ∃ hi, c = p.chunk split.tid index hi := by
  have buffered : s.chunk? p.cid index = some c := by
    rw [JSONReceiveState.chunk?, h, Option.bind_some, hc]
  obtain ⟨hmem, hcid, hindex⟩ := g.chunk _ _ _ buffered
  obtain ⟨q, hq, i, hi, rfl⟩ := (made.chunks c).mp hmem
  obtain rfl : q = p := sound.eq hq hp hcid
  obtain rfl : i = index := hindex
  exact ⟨hi, rfl⟩

/-- Every chunk of the piece is there. -/
def JSONReceiveState.whole (s : JSONReceiveState) (p : Piece) : Prop :=
  ∀ index < p.parts.length, (s.chunk? p.cid index).isSome

theorem Genuine.le_size_iff (g : Genuine split s) (made : MadeOf cid split pieces doc)
    (sound : Sound pieces) {p : Piece} (hp : p ∈ pieces) {byIndex : Dict Nat JSONChunkPacket}
    (h : s.chunks.get? p.cid = some byIndex) : p.parts.length ≤ byIndex.size ↔ s.whole p := by
  have below : ∀ k ∈ byIndex.keys, k < p.parts.length := by
    intro k hk
    obtain ⟨c, hc⟩ := Dict.mem_keys.mp hk
    exact (g.buffered made sound hp h hc).1
  rw [Dict.le_size_iff below]
  have same : ∀ k, k ∈ byIndex.keys ↔ (s.chunk? p.cid k).isSome := by
    intro k
    rw [Dict.mem_keys, JSONReceiveState.chunk?, h, Option.bind_some, Option.isSome_iff_exists]
  simp only [same, JSONReceiveState.whole]

theorem mapM_range {α : Type} {f : Nat → Option α} {l : List α}
    (h : ∀ i (hi : i < l.length), f i = some l[i]) : (List.range l.length).mapM f = some l := by
  induction l generalizing f with
  | nil => rfl
  | cons a l ih =>
    have first := h 0 (by simp)
    have rest := ih (f := fun i => f (i + 1)) fun i hi => h (i + 1) (Nat.succ_lt_succ hi)
    rw [List.length_cons, List.range_succ_eq_map, List.mapM_cons, first, List.mapM_map]
    simp [Function.comp_def, rest]

theorem Genuine.gather (g : Genuine split s) (made : MadeOf cid split pieces doc)
    (sound : Sound pieces) {p : Piece} (hp : p ∈ pieces) {byIndex : Dict Nat JSONChunkPacket}
    (h : s.chunks.get? p.cid = some byIndex) (whole : s.whole p) :
    gatherParts byIndex p.parts.length = some p.parts := by
  refine mapM_range fun index hi => ?_
  obtain ⟨c, hc⟩ := Option.isSome_iff_exists.mp (whole index hi)
  rw [JSONReceiveState.chunk?, h, Option.bind_some] at hc
  obtain ⟨_, rfl⟩ := g.buffered made sound hp h hc
  rw [hc]
  rfl

theorem Genuine.join (g : Genuine split s) (made : MadeOf cid split pieces doc)
    (sound : Sound pieces) {p : Piece} (hp : p ∈ pieces) :
    (s.whole p → joinChunks s (p.ref []) = some p.value) ∧
      (¬ s.whole p → joinChunks s (p.ref []) = none) := by
  have positive : 0 < p.parts.length := List.length_pos_iff.mpr p.ne
  cases h : s.chunks.get? p.cid with
  | none =>
    have absent : ¬ s.whole p := by
      intro whole
      have := whole 0 positive
      simp [JSONReceiveState.chunk?, h] at this
    exact ⟨fun whole => absurd whole absent, fun _ => by simp [joinChunks, Piece.ref, h]⟩
  | some byIndex =>
    have size := g.le_size_iff made sound hp h
    constructor
    · intro whole
      have enough : ¬ byIndex.size < (p.ref []).chunks := Nat.not_lt.mpr (size.mpr whole)
      rw [joinChunks, show s.chunks.get? (p.ref []).cid = some byIndex from h, Option.bind_some,
        if_neg enough]
      rw [show (p.ref []).chunks = p.parts.length from rfl, g.gather made sound hp h whole,
        Option.map_some, made.values p hp]
    · intro part
      have few : byIndex.size < (p.ref []).chunks := Nat.not_le.mp fun hle => part (size.mp hle)
      rw [joinChunks, show s.chunks.get? (p.ref []).cid = some byIndex from h, Option.bind_some,
        if_pos few]

/-- No ref of a genuine state has the wrong size. -/
theorem Genuine.sizes (g : Genuine split s) (made : MadeOf cid split pieces doc)
    (sound : Sound pieces) : validateCompletedChunkSizes s = none := by
  have all : ∀ ps : List Piece, (∀ p ∈ ps, p ∈ pieces) →
      checkSizes s (ps.map (Piece.ref [])) = none := by
    intro ps
    induction ps with
    | nil => exact fun _ => rfl
    | cons p ps ih =>
      intro sub
      have rest := ih fun q hq => sub q (List.mem_cons_of_mem _ hq)
      have hp := sub p List.mem_cons_self
      rw [List.map_cons, checkSizes]
      cases h : s.chunks.get? (p.ref []).cid with
      | none => exact rest
      | some byIndex =>
        simp only
        split
        · exact rest
        · rename_i enough
          have whole := (g.le_size_iff made sound hp h).mp (Nat.not_lt.mp enough)
          rw [show (p.ref []).chunks = p.parts.length from rfl, g.gather made sound hp h whole]
          simp [made.values p hp, Piece.ref]
          simpa [Piece.ref] using rest
  cases hm : s.manifest with
  | none => simp [validateCompletedChunkSizes, hm]
  | some m =>
    obtain rfl := g.manifest m hm
    simp only [validateCompletedChunkSizes, hm, made.refs]
    exact all pieces fun p hp => hp

/-- The joined strings by chunk id. -/
theorem collectValues_whole (g : Genuine split s) (made : MadeOf cid split pieces doc)
    (sound : Sound pieces) {ps : List Piece} (sub : ∀ p ∈ ps, p ∈ pieces)
    (nodup : (ps.map Piece.cid).Nodup) (whole : ∀ p ∈ ps, s.whole p) (v₀ : Dict JSString JSString) :
    ∃ values, collectValues s (ps.map (Piece.ref [])) v₀ = some values ∧
      (∀ p ∈ ps, values.get? p.cid = some p.value) ∧
      ∀ x, x ∉ ps.map Piece.cid → values.get? x = v₀.get? x := by
  induction ps generalizing v₀ with
  | nil => exact ⟨v₀, rfl, by simp, fun _ _ => rfl⟩
  | cons p ps ih =>
    rw [List.map_cons, List.nodup_cons] at nodup
    have joined := (g.join made sound (sub p List.mem_cons_self)).1 (whole p List.mem_cons_self)
    obtain ⟨values, hcollect, hget, hother⟩ := ih (fun q hq => sub q (List.mem_cons_of_mem _ hq))
      nodup.2 (fun q hq => whole q (List.mem_cons_of_mem _ hq)) (v₀.set (p.ref []).cid p.value)
    refine ⟨values, ?_, ?_, ?_⟩
    · rw [List.map_cons, collectValues, joined, Option.bind_some, hcollect]
    · intro q hq
      rcases List.mem_cons.mp hq with rfl | hq
      · rw [hother _ nodup.1]
        exact Dict.get?_set_self _ _ _
      · exact hget q hq
    · intro x hx
      rw [List.map_cons, List.mem_cons, not_or] at hx
      rw [hother x hx.2]
      exact Dict.get?_set_ne _ _ hx.1

theorem collectValues_part (g : Genuine split s) (made : MadeOf cid split pieces doc)
    (sound : Sound pieces) {ps : List Piece} (sub : ∀ p ∈ ps, p ∈ pieces)
    (part : ¬ ∀ p ∈ ps, s.whole p) (v₀ : Dict JSString JSString) :
    collectValues s (ps.map (Piece.ref [])) v₀ = none := by
  induction ps generalizing v₀ with
  | nil => simp at part
  | cons p ps ih =>
    rw [List.map_cons, collectValues]
    by_cases hp : s.whole p
    · rw [(g.join made sound (sub p List.mem_cons_self)).1 hp, Option.bind_some]
      apply ih fun q hq => sub q (List.mem_cons_of_mem _ hq)
      intro all
      exact part (List.forall_mem_cons.mpr ⟨hp, all⟩)
    · rw [(g.join made sound (sub p List.mem_cons_self)).2 hp]
      rfl

theorem placeValues_fill {ps : List Piece} {values : Dict JSString JSString}
    (get : ∀ p ∈ ps, values.get? p.cid = some p.value) (places : ∀ p ∈ ps, p.place ≠ [])
    {root out : Json} (h : fill (ps.map Piece.cut) root = some out) :
    placeValues values (ps.map (Piece.ref [])) root = .ok (some out) := by
  induction ps generalizing root with
  | nil =>
    obtain rfl : root = out := Option.some.inj h
    rfl
  | cons p ps ih =>
    rw [List.map_cons, Piece.cut, fill] at h
    obtain ⟨mid, hput, hrest⟩ := Option.bind_eq_some_iff.mp h
    have found : values.get? (p.ref []).cid = some p.value := get p List.mem_cons_self
    have placed : setByJSONPointer root (p.ref []).path (.str p.value) = .ok mid := by
      simpa [Piece.ref] using setByJSONPointer_of_put (places p List.mem_cons_self) hput
    rw [List.map_cons, placeValues, found]
    simp only [placed]
    exact ih (fun q hq => get q (List.mem_cons_of_mem _ hq))
      (fun q hq => places q (List.mem_cons_of_mem _ hq)) hrest

/-- A state is full when the manifest, every chunk of every piece and the end
have come. -/
theorem Genuine.full_iff (g : Genuine split s) (made : MadeOf cid split pieces doc)
    (sound : Sound pieces) :
    s.full split = true ↔ s.manifest = some split.manifest ∧ s.complete = true ∧
      ∀ p ∈ pieces, s.whole p := by
  have chunks : (∀ c ∈ split.chunks, s.got (.chunk c) = true) ↔ ∀ p ∈ pieces, s.whole p := by
    constructor
    · intro all p hp index hi
      have hc : p.chunk split.tid index hi ∈ split.chunks :=
        (made.chunks _).mpr ⟨p, hp, index, hi, rfl⟩
      have := all _ hc
      rw [g.got_of_some made sound hc] at this
      exact this
    · intro all c hc
      rw [g.got_of_some made sound hc]
      obtain ⟨p, hp, index, hi, rfl⟩ := (made.chunks c).mp hc
      exact all p hp index hi
  rw [JSONReceiveState.full, JSONSplitResult.packets, List.all_cons, List.all_append, List.all_map,
    List.all_cons, List.all_nil, ← chunks]
  simp only [Bool.and_eq_true, List.all_eq_true, Function.comp_apply, JSONReceiveState.got,
    decide_eq_true_eq, Bool.and_true]
  tauto

/-- **A genuine state assembles to the message, once it is full.** -/
theorem Genuine.assemble (g : Genuine split s) (made : MadeOf cid split pieces doc)
    (sound : Sound pieces) :
    assembleJSON s = .ok (if s.full split then some doc else none) := by
  have full := g.full_iff made sound
  cases hm : s.manifest with
  | none =>
    have : ¬ s.full split = true := by simp [full, hm]
    rw [assembleJSON, hm, if_neg this]
  | some m =>
    obtain rfl := g.manifest m hm
    simp only [assembleJSON, hm, g.waiting, Bool.or_false, Bool.not_eq_true']
    cases hc : s.complete with
    | false =>
      have : ¬ s.full split = true := by simp [full, hc]
      rw [if_neg this]
      rfl
    | true =>
      simp only [Bool.true_eq_false, if_false]
      by_cases whole : ∀ p ∈ pieces, s.whole p
      · obtain ⟨values, hcollect, hget, _⟩ := collectValues_whole g made sound (fun p hp => hp)
          sound.cids whole .empty
        rw [if_pos (full.mpr ⟨hm, hc, whole⟩), made.refs, hcollect]
        simp only
        rw [cloneJSON_eq made.wf]
        exact placeValues_fill hget made.places (made.mends.filled sound.clear)
      · have part : ¬ s.full split = true := fun h => whole (full.mp h).2.2
        rw [if_neg part, made.refs, collectValues_part g made sound (fun p hp => hp) whole]

theorem Genuine.finish (g : Genuine split s) (made : MadeOf cid split pieces doc)
    (sound : Sound pieces) (reports : List Report) :
    finishState s reports = (s, reports, if s.full split then some doc else none) := by
  have solid : falsy doc = false := by
    rcases made.solid with ⟨items, rfl⟩ | ⟨props, rfl⟩ <;> rfl
  rw [finishState, g.sizes made sound, g.assemble made sound]
  cases s.full split <;> simp [solid]

/-! ## One packet -/

theorem chunk?_openCid (s : JSONReceiveState) (x cid : JSString) (index : Nat) :
    (s.openCid x).chunk? cid index = s.chunk? cid index := by
  unfold JSONReceiveState.openCid
  split
  · rfl
  · rename_i hx
    rw [Bool.not_eq_true, Dict.has_eq_false] at hx
    by_cases h : cid = x
    · subst h
      simp [JSONReceiveState.chunk?, hx]
    · simp [JSONReceiveState.chunk?, Dict.get?_set_ne _ _ h]

theorem chunk?_buffer (s : JSONReceiveState) (c : JSONChunkPacket) (cid : JSString) (index : Nat) :
    (s.buffer c).chunk? cid index =
      if cid = c.cid ∧ index = c.index then some c else s.chunk? cid index := by
  by_cases h : cid = c.cid
  · subst h
    by_cases hi : index = c.index
    · simp [JSONReceiveState.chunk?, JSONReceiveState.buffer, hi]
    · cases hc : s.chunks.get? c.cid <;>
        simp [JSONReceiveState.chunk?, JSONReceiveState.buffer, hi, hc, Dict.get?_set_ne]
  · simp [JSONReceiveState.chunk?, JSONReceiveState.buffer, h, Dict.get?_set_ne]

theorem openCid_frame (s : JSONReceiveState) (x : JSString) :
    (s.openCid x).tid = s.tid ∧ (s.openCid x).manifest = s.manifest ∧
      (s.openCid x).complete = s.complete ∧ (s.openCid x).emitted = s.emitted := by
  unfold JSONReceiveState.openCid
  split <;> exact ⟨rfl, rfl, rfl, rfl⟩

/-- `s'` has what `s` has, and `q`. -/
structure Takes (split : JSONSplitResult) (s s' : JSONReceiveState) (q : JSONTransportPacket) :
    Prop where
  genuine : Genuine split s'
  tid : s'.tid = s.tid
  got : ∀ p ∈ split.packets, s'.got p = true ↔ s.got p = true ∨ p = q

theorem mem_splitPackets {q : JSONTransportPacket} :
    q ∈ split.packets ↔ q = .manifest split.manifest ∨ (∃ c ∈ split.chunks, q = .chunk c) ∨
      q = .complete split.tid := by
  simp [JSONSplitResult.packets, eq_comm]

theorem Genuine.take_manifest (g : Genuine split s) :
    Takes split s { s with manifest := some split.manifest } (.manifest split.manifest) where
  genuine := ⟨by rintro m ⟨⟩; rfl, g.chunk, g.waiting⟩
  tid := rfl
  got p hp := by
    rcases mem_splitPackets.mp hp with rfl | ⟨c, _, rfl⟩ | rfl <;>
      simp [JSONReceiveState.chunk?]

theorem Genuine.take_complete (g : Genuine split s) :
    Takes split s { s with complete := true } (.complete split.tid) where
  genuine := ⟨g.manifest, g.chunk, g.waiting⟩
  tid := rfl
  got p hp := by
    rcases mem_splitPackets.mp hp with rfl | ⟨c, _, rfl⟩ | rfl <;>
      simp [JSONReceiveState.chunk?]

/-- A packet that is there already adds nothing. -/
theorem Genuine.take_again (g : Genuine split s) {q : JSONTransportPacket} (h : s.got q = true) :
    Takes split s s q where
  genuine := g
  tid := rfl
  got p _ := by
    constructor
    · exact .inl
    · rintro (hp | rfl)
      · exact hp
      · exact h

theorem Takes.trans {s' s'' : JSONReceiveState} {q : JSONTransportPacket}
    (h : Takes split s' s'' q) (tid : s'.tid = s.tid) (same : ∀ p, s'.got p = s.got p) :
    Takes split s s'' q :=
  ⟨h.genuine, h.tid.trans tid, fun p hp => by rw [h.got p hp, same]⟩

theorem Genuine.take_chunk (g : Genuine split s) (made : MadeOf cid split pieces doc)
    (sound : Sound pieces) {c : JSONChunkPacket} (hc : c ∈ split.chunks) (now : Nat) :
    Takes split s { s.buffer c with updatedAt := now } (.chunk c) where
  genuine := by
    refine ⟨g.manifest, fun x index c' h => ?_, g.waiting⟩
    change (s.buffer c).chunk? x index = some c' at h
    rw [chunk?_buffer] at h
    split at h
    · rename_i here
      obtain rfl := Option.some.inj h
      exact ⟨hc, here.1.symm, here.2.symm⟩
    · exact g.chunk x index c' h
  tid := rfl
  got p hp := by
    rcases mem_splitPackets.mp hp with rfl | ⟨c', hc', rfl⟩ | rfl
    · simp [JSONReceiveState.buffer]
    · have here : { s.buffer c with updatedAt := now }.chunk? c'.cid c'.index =
          if c'.cid = c.cid ∧ c'.index = c.index then some c else s.chunk? c'.cid c'.index :=
        chunk?_buffer s c c'.cid c'.index
      simp only [got_chunk, here, JSONTransportPacket.chunk.injEq]
      split
      · rename_i same
        have := chunk_eq made sound hc' hc same.1 same.2
        simp [this]
      · rename_i other
        constructor
        · exact .inl
        · rintro (h | rfl)
          · exact h
          · exact absurd ⟨rfl, rfl⟩ other
    · simp [JSONReceiveState.buffer]

theorem acceptChunk_genuine (g : Genuine split s) (made : MadeOf cid split pieces doc)
    (sound : Sound pieces) {c : JSONChunkPacket} (hc : c ∈ split.chunks) {reliable : Bool}
    (fresh : reliable = true ∨ s.got (.chunk c) = false) (now : Nat) :
    ∃ s', acceptChunk reliable now s c = (s', none) ∧ Takes split s s' (.chunk c) := by
  have valid : s.manifest.bind (fun m => validateChunkForManifest m c) = none := by
    cases hm : s.manifest with
    | none => rfl
    | some m =>
      obtain rfl := g.manifest m hm
      exact validateChunk_none made sound hc
  have hash : ¬ c.hash ≠ hashString c.data := not_not.mpr (chunk_hash made hc)
  obtain ⟨tid, manifest, complete, emitted⟩ := openCid_frame s c.cid
  have opened : ∀ p, (s.openCid c.cid).got p = s.got p := by
    intro p
    cases p <;> simp [JSONReceiveState.got, chunk?_openCid, manifest, complete]
  have g' : Genuine split (s.openCid c.cid) :=
    ⟨by rw [manifest]; exact g.manifest, by simp only [chunk?_openCid]; exact g.chunk,
      emitted.trans g.waiting⟩
  simp only [acceptChunk, if_neg hash, valid]
  rw [g.got_of_some made sound hc, ← chunk?_openCid s c.cid] at fresh
  cases hb : ((s.openCid c.cid).chunk? c.cid c.index).isSome with
  | true =>
    have again : reliable = true := by
      rcases fresh with h | h
      · exact h
      · rw [hb] at h
        cases h
    have got : (s.openCid c.cid).got (.chunk c) = true := by
      rw [g'.got_of_some made sound hc, hb]
    simp only [if_true, again]
    exact ⟨_, rfl, (g'.take_again got).trans tid opened⟩
  | false =>
    simp only [Bool.false_eq_true, if_false]
    exact ⟨_, rfl, (g'.take_chunk made sound hc now).trans tid opened⟩

theorem acceptManifest_genuine (g : Genuine split s) (made : MadeOf cid split pieces doc)
    (sound : Sound pieces) {reliable : Bool}
    (fresh : reliable = true ∨ s.got (.manifest split.manifest) = false) :
    ∃ s', acceptManifest reliable s split.manifest = (s', none) ∧
      Takes split s s' (.manifest split.manifest) := by
  cases hm : s.manifest with
  | some m =>
    obtain rfl := g.manifest m hm
    have got : s.got (.manifest split.manifest) = true := by simp [JSONReceiveState.got, hm]
    rw [got] at fresh
    obtain rfl : reliable = true := fresh.resolve_right (by simp)
    simp only [acceptManifest, hm, if_true]
    exact ⟨s, rfl, g.take_again got⟩
  | none =>
    have taken := g.take_manifest
    simp only [acceptManifest, hm, (validateManifest_none made).mpr sound,
      validateBuffered_none taken.genuine made sound]
    exact ⟨_, rfl, taken⟩

/-- **A packet of the message adds itself, and the last one completes it.** In
reliable mode it may come again. -/
theorem absorb_genuine (g : Genuine split s) (made : MadeOf cid split pieces doc)
    (sound : Sound pieces) {q : JSONTransportPacket} (hq : q ∈ split.packets) {reliable : Bool}
    (fresh : reliable = true ∨ s.got q = false) (now : Nat) :
    ∃ s', absorb reliable now s q = (s', [], if s'.full split then some doc else none) ∧
      Takes split s s' q := by
  rcases mem_splitPackets.mp hq with rfl | ⟨c, hc, rfl⟩ | rfl
  · obtain ⟨s', accepted, takes⟩ := acceptManifest_genuine g made sound fresh
    refine ⟨s', ?_, takes⟩
    simp only [absorb, accepted]
    exact takes.genuine.finish made sound []
  · obtain ⟨s', accepted, takes⟩ := acceptChunk_genuine g made sound hc fresh now
    refine ⟨s', ?_, takes⟩
    simp only [absorb, accepted]
    exact takes.genuine.finish made sound []
  · exact ⟨_, g.take_complete.genuine.finish made sound [], g.take_complete⟩

theorem MadeOf.packets_tid (made : MadeOf cid split pieces doc) :
    ∀ q ∈ split.packets, q.tid = split.tid := by
  intro q hq
  rcases mem_splitPackets.mp hq with rfl | ⟨c, hc, rfl⟩ | rfl
  · exact made.tid
  · obtain ⟨p, _, index, hi, rfl⟩ := (made.chunks c).mp hc
    rfl
  · rfl

theorem MadeOf.packets_wf (made : MadeOf cid split pieces doc) : ∀ q ∈ split.packets, q.Wf := by
  intro q hq
  rcases mem_splitPackets.mp hq with rfl | ⟨c, hc, rfl⟩ | rfl
  · exact made.wf
  · trivial
  · trivial

/-! ## Messages that can be put together -/

/-- The packets of `split` carry `doc`, and a receiver can put it together. -/
def Carries (split : JSONSplitResult) (doc : Json) : Prop :=
  ∃ cid pieces, MadeOf cid split pieces doc ∧ Sound pieces

namespace Carries

theorem absorb (h : Carries split doc) (g : Genuine split s) {q : JSONTransportPacket}
    (hq : q ∈ split.packets) {reliable : Bool} (fresh : reliable = true ∨ s.got q = false)
    (now : Nat) :
    ∃ s', LemonModel.absorb reliable now s q =
        (s', [], if s'.full split then some doc else none) ∧ Takes split s s' q := by
  obtain ⟨cid, pieces, made, sound⟩ := h
  exact absorb_genuine g made sound hq fresh now

theorem packets_tid (h : Carries split doc) : ∀ q ∈ split.packets, q.tid = split.tid := by
  obtain ⟨cid, pieces, made, _⟩ := h
  exact made.packets_tid

theorem packets_wf (h : Carries split doc) : ∀ q ∈ split.packets, q.Wf := by
  obtain ⟨cid, pieces, made, _⟩ := h
  exact made.packets_wf

theorem packets_nodup (h : Carries split doc) : split.packets.Nodup := by
  obtain ⟨cid, pieces, made, sound⟩ := h
  have chunks : (split.chunks.map JSONTransportPacket.chunk).Nodup :=
    (made.nodup sound.cids).map fun a b h => by cases h; rfl
  rw [JSONSplitResult.packets, List.nodup_cons, List.nodup_append]
  exact ⟨by simp, chunks, by simp, by simp⟩

end Carries

/-- **A document without `__proto__` is carried by its split**, whatever its
size and the options, if its chunk ids differ. -/
theorem carries_split {value : Json} {options : SplitOptions} {ids : Ids} (wf : value.Wf)
    (container : isContainer value = true) (noProto : plain value = true)
    (h : splitJSON (.ofJson value) options ids = some split)
    (distinct : (split.manifest.refs.map JSONChunkRef.cid).Nodup) : Carries split value := by
  have solid : (JSValue.ofJson value).isContainer = true := by
    cases value <;> first | rfl | cases container
  obtain ⟨pieces, doc, image, made, spots, _⟩ := splitJSON_madeOf (JSValue.wf_ofJson wf) solid h
  rw [copy_ofJson noProto, JSValue.image_ofJson] at image
  obtain rfl := Option.some.inj image
  refine ⟨_, pieces, made, ?_, fun p hp => ?_⟩
  · rwa [made.refs, ref_cids] at distinct
  · have member : p.spot ∈ (JSValue.ofJson value).spots options [] :=
      spots ▸ List.mem_map_of_mem hp
    exact spots_ofJson noProto options [] _ member

end LemonModel
