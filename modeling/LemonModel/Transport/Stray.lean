import LemonModel.Transport.Scattered
import LemonModel.Transport.Assemble

/-!
# Chunks that do not belong

A receiver also gets chunks of the message's tid that the manifest does not know.
`strays_are_harmless` says when it hears what it would have heard without them.
-/

namespace LemonModel

open Text

/-- The manifest has no ref for the chunk, or one with another number of chunks. -/
def Stray (split : JSONSplitResult) (c : JSONChunkPacket) : Prop :=
  c.tid = split.tid ∧ ∀ ref ∈ split.manifest.refs, ref.cid = c.cid → ref.chunks ≠ c.total

instance (split : JSONSplitResult) (c : JSONChunkPacket) : Decidable (Stray split c) := by
  unfold Stray
  infer_instance

/-! ## What is buffered -/

/-- The chunk that is buffered for a packet if its slot is free. Once the manifest is
there (`seen`), strays are turned away. -/
def admits (split : JSONSplitResult) (seen : Bool) : JSONTransportPacket → Option JSONChunkPacket
  | .chunk c =>
    if c.hash = hashString c.data ∧ (seen = true → ¬ Stray split c) then some c else none
  | _ => none

def admitted (split : JSONSplitResult) (seen : Bool) :
    List JSONTransportPacket → List JSONChunkPacket
  | [] => []
  | p :: l =>
    (admits split seen p).toList ++
      admitted split (seen || decide (p = .manifest split.manifest)) l

/-- The chunk that came first for a slot. -/
def holder (split : JSONSplitResult) (l : List JSONTransportPacket) (cid : JSString) (index : Nat) :
    Option JSONChunkPacket :=
  (admitted split false l).find? fun c => c.cid = cid ∧ c.index = index

/-- What the chunks that came first say, if every slot of the ref is taken. -/
def spelled (split : JSONSplitResult) (l : List JSONTransportPacket) (ref : JSONChunkRef) :
    Option JSString :=
  ((List.range ref.chunks).mapM fun index =>
    (holder split l ref.cid index).map (·.data)).map List.flatten

variable {cid : Nat → JSString} {split : JSONSplitResult} {pieces : List Piece} {doc : Json}
  {s : JSONReceiveState} {l l' : List JSONTransportPacket} {q : JSONTransportPacket}
  {c : JSONChunkPacket}

theorem admitted_append (seen : Bool) (l l' : List JSONTransportPacket) :
    admitted split seen (l ++ l') = admitted split seen l ++
      admitted split (seen || decide (.manifest split.manifest ∈ l)) l' := by
  induction l generalizing seen with
  | nil => simp [admitted]
  | cons p l ih =>
    have flag : (seen || decide (p = .manifest split.manifest) ||
        decide (.manifest split.manifest ∈ l)) =
        (seen || decide (.manifest split.manifest ∈ p :: l)) := by
      rw [Bool.or_assoc, ← Bool.decide_or]
      simp only [List.mem_cons, eq_comm]
    rw [List.cons_append, admitted, ih, admitted, List.append_assoc, flag]

theorem holder_snoc (l : List JSONTransportPacket) (q : JSONTransportPacket) (x : JSString)
    (i : Nat) : holder split (l ++ [q]) x i = (holder split l x i).or
      ((admits split (decide (.manifest split.manifest ∈ l)) q).filter
        fun c => c.cid = x ∧ c.index = i) := by
  rw [holder, admitted_append, List.find?_append, holder]
  congr 1
  simp only [admitted, List.append_nil, Bool.false_or]
  cases admits split (decide (.manifest split.manifest ∈ l)) q with
  | none => rfl
  | some c => by_cases own : c.cid = x ∧ c.index = i <;> simp [Option.filter, own]

theorem holder_some {x : JSString} {i : Nat} (h : holder split l x i = some c) :
    c ∈ admitted split false l ∧ c.cid = x ∧ c.index = i := by
  have found : c.cid = x ∧ c.index = i := by simpa using List.find?_some h
  exact ⟨List.mem_of_find?_eq_some h, found⟩

/-- Who came first stays. -/
theorem holder_append {x : JSString} {i : Nat} (h : holder split l x i = some c)
    (l' : List JSONTransportPacket) : holder split (l ++ l') x i = some c := by
  rw [holder, admitted_append, List.find?_append]
  rw [holder] at h
  rw [h]
  rfl

theorem spelled_append {ref : JSONChunkRef} {text : JSString} (h : spelled split l ref = some text)
    (l' : List JSONTransportPacket) : spelled split (l ++ l') ref = some text := by
  obtain ⟨parts, whole, rfl⟩ := Option.map_eq_some_iff.mp h
  clear h
  have same : ((List.range ref.chunks).mapM fun index =>
      (holder split (l ++ l') ref.cid index).map (·.data)) = some parts := by
    generalize List.range ref.chunks = indices at whole ⊢
    induction indices generalizing parts with
    | nil => exact whole
    | cons i indices ih =>
      rw [List.mapM_cons] at whole ⊢
      obtain ⟨data, held, rest⟩ := Option.bind_eq_some_iff.mp whole
      obtain ⟨c, first, rfl⟩ := Option.map_eq_some_iff.mp held
      obtain ⟨others, rest, made⟩ := Option.bind_eq_some_iff.mp rest
      rw [holder_append first, Option.map_some]
      have tail := ih others rest
      simp only [Option.bind_eq_bind, Option.bind_some, tail]
      exact made
  rw [spelled, same]
  rfl

/-! ## The state after some packets -/

/-- The state once the packets `l` have come and nothing was assembled. -/
structure Buffered (split : JSONSplitResult) (l : List JSONTransportPacket) (s : JSONReceiveState) :
    Prop where
  manifest : s.manifest =
    if .manifest split.manifest ∈ l then some split.manifest else none
  complete : s.complete = decide (.complete split.tid ∈ l)
  chunk : ∀ x i, s.chunk? x i = holder split l x i
  waiting : s.emitted = false

theorem buffered_fresh (split : JSONSplitResult) (tid : JSString) (now : Nat) :
    Buffered split [] (.fresh tid now) :=
  ⟨rfl, rfl, fun _ _ => rfl, rfl⟩

theorem Buffered.touch (b : Buffered split l s) (now : Nat) :
    Buffered split l { s with updatedAt := now } :=
  ⟨b.manifest, b.complete, b.chunk, b.waiting⟩

/-- In a sound message the check of a chunk turns away the strays. -/
theorem validateChunk_iff (made : MadeOf cid split pieces doc) (sound : Sound pieces)
    (own : c.tid = split.tid) :
    validateChunkForManifest split.manifest c = none ↔ ¬ Stray split c := by
  rw [validateChunkForManifest, made.refs]
  cases found : (pieces.map (Piece.ref [])).find? (·.cid = c.cid) with
  | none =>
    have stray : Stray split c := by
      refine ⟨own, fun ref hr same => ?_⟩
      rw [made.refs] at hr
      have other := List.find?_eq_none.mp found ref hr
      simp [same] at other
    simp [stray]
  | some ref =>
    have hr := List.mem_of_find?_eq_some found
    have same : ref.cid = c.cid := by simpa using List.find?_some found
    obtain ⟨p, hp, rfl⟩ := List.mem_map.mp hr
    have stray : Stray split c ↔ (p.ref []).chunks ≠ c.total := by
      constructor
      · intro h
        exact h.2 (p.ref []) (made.refs ▸ hr) same
      · refine fun other => ⟨own, fun ref hr' same' => ?_⟩
        rw [made.refs] at hr'
        obtain ⟨p', hp', rfl⟩ := List.mem_map.mp hr'
        obtain rfl : p' = p := sound.eq hp' hp (same'.trans same.symm)
        exact other
    rw [stray]
    by_cases total : c.total = (p.ref []).chunks
    · simp [total]
    · simp [total, Ne.symm total]

theorem holder_turned (turned : admits split (decide (.manifest split.manifest ∈ l)) q = none)
    (x : JSString) (i : Nat) : holder split (l ++ [q]) x i = holder split l x i := by
  rw [holder_snoc, turned, Option.filter_none, Option.or_none]

theorem Buffered.take_chunk (b : Buffered split l s) (made : MadeOf cid split pieces doc)
    (sound : Sound pieces) (own : c.tid = split.tid) (reliable : Bool) (now : Nat) :
    Buffered split (l ++ [.chunk c]) (acceptChunk reliable now s c).1 := by
  have keeps : ∀ s' : JSONReceiveState, s'.manifest = s.manifest → s'.complete = s.complete →
      s'.emitted = s.emitted → (∀ x i, s'.chunk? x i = holder split (l ++ [.chunk c]) x i) →
      Buffered split (l ++ [.chunk c]) s' := by
    intro s' manifest complete emitted chunk
    refine ⟨?_, ?_, chunk, emitted.trans b.waiting⟩
    · rw [manifest, b.manifest]
      simp
    · rw [complete, b.complete]
      simp
  have seen : s.manifest.bind (fun m => validateChunkForManifest m c) = none ↔
      (.manifest split.manifest ∈ l → ¬ Stray split c) := by
    rw [b.manifest, ← validateChunk_iff made sound own]
    by_cases there : .manifest split.manifest ∈ l <;> simp [there]
  by_cases hash : c.hash = hashString c.data
  · rw [acceptChunk, if_neg (not_not.mpr hash)]
    cases refused : s.manifest.bind fun m => validateChunkForManifest m c with
    | some r =>
      have stray : ¬ (.manifest split.manifest ∈ l → ¬ Stray split c) := by
        rw [← seen, refused]
        exact Option.some_ne_none r
      have turned : admits split (decide (.manifest split.manifest ∈ l)) (.chunk c) = none := by
        simpa [admits, hash] using stray
      refine keeps s rfl rfl rfl fun x i => ?_
      rw [holder_turned turned, b.chunk]
    | none =>
      have admitted : admits split (decide (.manifest split.manifest ∈ l)) (.chunk c) = some c := by
        simpa [admits, hash] using seen.mp refused
      obtain ⟨-, manifest, complete, emitted⟩ := openCid_frame s c.cid
      simp only [chunk?_openCid]
      by_cases taken : (s.chunk? c.cid c.index).isSome
      · have opened : Buffered split (l ++ [.chunk c]) (s.openCid c.cid) := by
          refine keeps _ manifest complete emitted fun x i => ?_
          rw [chunk?_openCid, b.chunk, holder_snoc, admitted]
          rw [b.chunk] at taken
          by_cases here : c.cid = x ∧ c.index = i
          · obtain ⟨rfl, rfl⟩ := here
            rw [Option.or_of_isSome taken]
          · rw [Option.filter_some_neg (by simpa using here), Option.or_none]
        rw [if_pos taken]
        cases reliable <;> exact opened
      · rw [if_neg taken]
        rw [b.chunk, Bool.not_eq_true, Option.isSome_eq_false_iff, Option.isNone_iff_eq_none]
          at taken
        refine keeps _ manifest complete emitted fun x i => ?_
        refine (chunk?_buffer (s.openCid c.cid) c x i).trans ?_
        rw [chunk?_openCid, b.chunk, holder_snoc, admitted]
        by_cases here : c.cid = x ∧ c.index = i
        · obtain ⟨rfl, rfl⟩ := here
          rw [taken, if_pos ⟨rfl, rfl⟩, Option.none_or, Option.filter_some_pos (by simp)]
        · have other : ¬ (x = c.cid ∧ i = c.index) := fun h => here ⟨h.1.symm, h.2.symm⟩
          rw [if_neg other, Option.filter_some_neg (by simpa using here), Option.or_none]
  · have turned : admits split (decide (.manifest split.manifest ∈ l)) (.chunk c) = none := by
      simp [admits, hash]
    rw [acceptChunk, if_pos hash]
    refine keeps s rfl rfl rfl fun x i => ?_
    rw [holder_turned turned, b.chunk]

/-! ## Assembly -/

theorem mapM_isSome {α β : Type} {f : α → Option β} {l : List α} {out : List β}
    (h : l.mapM f = some out) : ∀ a ∈ l, (f a).isSome := by
  induction l generalizing out with
  | nil => exact nofun
  | cons a l ih =>
    rw [List.mapM_cons] at h
    obtain ⟨b, first, rest⟩ := Option.bind_eq_some_iff.mp h
    obtain ⟨others, rest, -⟩ := Option.bind_eq_some_iff.mp rest
    intro x hx
    rcases List.mem_cons.mp hx with rfl | hx
    · rw [first]
      rfl
    · exact ih rest x hx

/-- The joined chunks of a ref, by the slots. -/
theorem joinChunks_slots (s : JSONReceiveState) (ref : JSONChunkRef) :
    joinChunks s ref = ((List.range ref.chunks).mapM fun index =>
      (s.chunk? ref.cid index).map (·.data)).map List.flatten := by
  have first : 0 ∈ List.range ref.chunks := List.mem_range.mpr ref.pos
  rw [joinChunks]
  cases found : s.chunks.get? ref.cid with
  | none =>
    have empty : (fun index => (s.chunk? ref.cid index).map (·.data)) = fun _ => none := by
      funext index
      rw [JSONReceiveState.chunk?, found]
      rfl
    rw [empty]
    cases whole : (List.range ref.chunks).mapM fun _ : Nat => (none : Option JSString) with
    | none => rfl
    | some parts => cases mapM_isSome whole 0 first
  | some byIndex =>
    have same : (fun index => (s.chunk? ref.cid index).map (·.data)) =
        fun index => (byIndex.get? index).map (·.data) := by
      funext index
      rw [JSONReceiveState.chunk?, found]
      rfl
    rw [same, Option.bind_some]
    split
    · rename_i few
      cases whole : (List.range ref.chunks).mapM fun index => (byIndex.get? index).map (·.data) with
      | none => rfl
      | some parts =>
        have keys : List.range ref.chunks ⊆ byIndex.keys := by
          intro index hi
          have held := mapM_isSome whole index hi
          rw [Option.isSome_map, Option.isSome_iff_exists] at held
          exact Dict.mem_keys.mpr held
        have enough := (List.subperm_of_subset List.nodup_range keys).length_le
        rw [List.length_range] at enough
        exact absurd few (Nat.not_lt.mpr (enough.trans_eq (Dict.length_keys byIndex)))
    · rfl

/-- Everything that assembly waits for is there. -/
structure Due (split : JSONSplitResult) (l : List JSONTransportPacket) : Prop where
  manifest : .manifest split.manifest ∈ l
  complete : .complete split.tid ∈ l
  filled : ∀ ref ∈ split.manifest.refs, (spelled split l ref).isSome

/-- The chunks that came first say what the message's own chunks say. -/
def Truthful (split : JSONSplitResult) (l : List JSONTransportPacket) : Prop :=
  ∀ ref ∈ split.manifest.refs, spelled split l ref = spelled split split.packets ref

instance (split : JSONSplitResult) (l : List JSONTransportPacket) : Decidable (Truthful split l) := by
  unfold Truthful
  infer_instance

theorem mem_admitted {seen : Bool} (h : c ∈ admitted split seen l) :
    .chunk c ∈ l ∧ c.hash = hashString c.data := by
  induction l generalizing seen with
  | nil => cases h
  | cons p l ih =>
    rw [admitted, List.mem_append, Option.mem_toList] at h
    rcases h with own | later
    · cases p with
      | chunk c' =>
        simp only [admits, Option.ite_none_right_eq_some, Option.some.injEq] at own
        obtain ⟨⟨hash, -⟩, rfl⟩ := own
        exact ⟨List.mem_cons_self, hash⟩
      | _ => cases own
    · obtain ⟨mem, hash⟩ := ih later
      exact ⟨List.mem_cons_of_mem _ mem, hash⟩

theorem admitted_of_mem (mem : .chunk c ∈ l) (hash : c.hash = hashString c.data)
    (known : ¬ Stray split c) (seen : Bool) : c ∈ admitted split seen l := by
  induction l generalizing seen with
  | nil => cases mem
  | cons p l ih =>
    rw [admitted, List.mem_append, Option.mem_toList]
    rcases List.mem_cons.mp mem with rfl | mem
    · left
      simp [admits, hash, known]
    · exact .inr (ih mem _)

/-- The message's own chunks are no strays. -/
theorem own_chunk (made : MadeOf cid split pieces doc) (hc : c ∈ split.chunks) :
    ¬ Stray split c := by
  obtain ⟨p, hp, index, h, rfl⟩ := (made.chunks c).mp hc
  intro stray
  have hr : p.ref [] ∈ split.manifest.refs := made.refs ▸ List.mem_map_of_mem hp
  exact stray.2 (p.ref []) hr rfl rfl

/-- The message's own chunks, in any order, say its strings. -/
theorem spelled_own (made : MadeOf cid split pieces doc) (sound : Sound pieces)
    (all : ∀ c ∈ split.chunks, .chunk c ∈ l) (only : ∀ c ∈ admitted split false l, c ∈ split.chunks)
    {p : Piece} (hp : p ∈ pieces) :
    spelled split l (p.ref []) = some p.value := by
  have held : ∀ index (h : index < p.parts.length),
      (holder split l p.cid index).map (·.data) = some p.parts[index] := by
    intro index h
    have mine : p.chunk split.tid index h ∈ split.chunks :=
      (made.chunks _).mpr ⟨p, hp, index, h, rfl⟩
    cases first : holder split l p.cid index with
    | none =>
      have there := admitted_of_mem (all _ mine) (chunk_hash made mine) (own_chunk made mine) false
      have absent := List.find?_eq_none.mp first _ there
      simp [Piece.chunk] at absent
    | some c =>
      obtain ⟨mem, sameCid, sameIndex⟩ := holder_some first
      rw [chunk_eq made sound (only c mem) mine sameCid sameIndex]
      rfl
  have parts := mapM_range held
  change Option.map List.flatten ((List.range p.parts.length).mapM fun index =>
    (holder split l p.cid index).map (·.data)) = some p.value
  rw [parts, Option.map_some, made.values p hp]

theorem truthful_iff (made : MadeOf cid split pieces doc) (sound : Sound pieces) :
    Truthful split l ↔ ∀ p ∈ pieces, spelled split l (p.ref []) = some p.value := by
  have own : ∀ c, .chunk c ∈ split.packets ↔ c ∈ split.chunks := by
    intro c
    rw [mem_splitPackets]
    simp
  rw [Truthful, made.refs, List.forall_mem_map]
  refine forall₂_congr fun p hp => ?_
  rw [spelled_own made sound (fun c => (own c).mpr) (fun c mem => (own c).mp (mem_admitted mem).1) hp]

theorem walk_append (root : Json) (a b : List JSString) :
    walk root (a ++ b) = (walk root a).bind fun x => walk x b := by
  induction a generalizing root with
  | nil => rfl
  | cons k a ih =>
    rw [List.cons_append, walk, walk, Option.bind_assoc]
    exact congrArg _ (funext ih)

/-- No marker is inside a marker. -/
theorem walk_mark {p p' : Piece} {keys : List JSString} (h : walk p.mark keys = some p'.mark) :
    keys = [] := by
  cases keys with
  | nil => rfl
  | cons k keys =>
    obtain ⟨child, found, rest⟩ := Option.bind_eq_some_iff.mp h
    have text : child = .str p.cid := by
      have found : ((lit "$jsonTransportRef", Json.str p.cid) :: []).lookup k = some child := found
      have entry := lookup_eq_some found
      rw [List.mem_singleton, Prod.mk.injEq] at entry
      exact entry.2
    subst text
    cases keys with
    | nil => cases rest
    | cons k' keys => cases rest

/-- The markers of a message are apart. -/
theorem separate_refs (made : MadeOf cid split pieces doc) (sound : Sound pieces) :
    Separate split.manifest.refs := by
  have marked : ∀ p ∈ pieces, walk split.manifest.root p.place = some p.mark := fun p hp =>
    (made.mends.marked p hp).trans (if_neg (sound.clear p hp))
  intro ref hr
  rw [made.refs] at hr ⊢
  obtain ⟨p, hp, rfl⟩ := List.mem_map.mp hr
  have place : ∀ p : Piece, segments (p.ref []).path = p.place := fun p => by simp [Piece.ref]
  rw [place]
  refine ⟨made.places p hp, fun ref' hr' inside => ?_⟩
  obtain ⟨p', hp', rfl⟩ := List.mem_map.mp hr'
  rw [place] at inside ⊢
  obtain ⟨rest, deeper⟩ := inside
  have below := marked p' hp'
  rw [← deeper, walk_append, marked p hp, Option.bind_some] at below
  rw [walk_mark below, List.append_nil] at deeper
  exact deeper

/-- What is filled in at places apart is there. -/
theorem fill_walk {cuts : List (List JSString × Json)} {root out : Json}
    (apart : cuts.Pairwise fun a b => Unnested a.1 b.1) (h : fill cuts root = some out) :
    (∀ cut ∈ cuts, walk out cut.1 = some cut.2) ∧
      ∀ keys, (∀ cut ∈ cuts, Unnested cut.1 keys) → walk out keys = walk root keys := by
  induction cuts generalizing root with
  | nil =>
    obtain rfl : root = out := Option.some.inj h
    exact ⟨nofun, fun _ _ => rfl⟩
  | cons cut cuts ih =>
    obtain ⟨keys, v⟩ := cut
    obtain ⟨first, rest⟩ := List.pairwise_cons.mp apart
    obtain ⟨root', write, later⟩ := Option.bind_eq_some_iff.mp h
    obtain ⟨there, kept⟩ := ih rest later
    refine ⟨fun cut hc => ?_, fun keys' off => ?_⟩
    · rcases List.mem_cons.mp hc with rfl | hc
      · have off : ∀ cut ∈ cuts, Unnested cut.1 keys := fun cut hc =>
          ⟨(first cut hc).2, (first cut hc).1⟩
        rw [kept keys off, walk_put write]
      · exact there cut hc
    · rw [kept keys' fun cut hc => off cut (List.mem_cons_of_mem _ hc)]
      exact walk_put_apart write (off (keys, v) List.mem_cons_self)

theorem walk_doc (made : MadeOf cid split pieces doc) (sound : Sound pieces) {p : Piece}
    (hp : p ∈ pieces) : walk doc p.place = some (.str p.value) := by
  have apart : (pieces.map Piece.cut).Pairwise fun a b => Unnested a.1 b.1 := by
    have valid := (validateManifest_none made).mpr sound
    obtain ⟨markers, nodup, -⟩ := validateRefs_sound valid
    have refs := apart_of_separate markers nodup (separate_refs made sound)
    rw [made.refs, List.pairwise_map] at refs
    rw [List.pairwise_map]
    simpa [Piece.ref, Piece.cut] using refs
  exact (fill_walk apart (made.mends.filled sound.clear)).1 p.cut (List.mem_map_of_mem hp)

theorem Buffered.join (b : Buffered split l s) (ref : JSONChunkRef) :
    joinChunks s ref = spelled split l ref := by
  rw [joinChunks_slots]
  simp only [b.chunk]
  rfl

/-- **What assembly makes of a state that is due.** It is the message exactly if the
first chunks tell the truth. -/
theorem Buffered.assemble (b : Buffered split l s) (made : MadeOf cid split pieces doc)
    (sound : Sound pieces) (due : Due split l) :
    ∃ j, assembleJSON s = .ok (some j) ∧ (j = doc ↔ Truthful split l) := by
  have own : s.manifest = some split.manifest := b.manifest.trans (if_pos due.manifest)
  have valid := (validateManifest_none made).mpr sound
  obtain ⟨markers, nodup, -⟩ := validateRefs_sound valid
  have ready : Ready split.manifest s := by
    refine ⟨by rw [b.complete, decide_eq_true due.complete], b.waiting, fun ref hr => ?_⟩
    rw [b.join]
    exact due.filled ref hr
  obtain ⟨out, positions⟩ :=
    assembleJSON_separate own made.wf markers nodup ready (separate_refs made sound)
  refine ⟨_, out, ?_⟩
  rw [truthful_iff made sound]
  constructor
  · intro same p hp
    obtain ⟨text, joined, here⟩ := positions (p.ref []) (made.refs ▸ List.mem_map_of_mem hp)
    have place : segments (p.ref []).path = p.place := by simp [Piece.ref]
    rw [same, place, walk_doc made sound hp] at here
    obtain rfl : p.value = text := by simpa using here
    rw [← b.join]
    exact joined
  · intro truthful
    obtain ⟨values, assembled, known⟩ := assembleJSON_ready own made.wf nodup ready
    have get : ∀ p ∈ pieces, values.get? p.cid = some p.value := by
      intro p hp
      obtain ⟨text, value, joined⟩ := known (p.ref []) (made.refs ▸ List.mem_map_of_mem hp)
      rw [b.join, truthful p hp] at joined
      exact value.trans joined.symm
    rw [made.refs, placeValues_fill get made.places (made.mends.filled sound.clear), out] at assembled
    simpa using assembled

theorem Buffered.sizes (b : Buffered split l s) (made : MadeOf cid split pieces doc)
    (sound : Sound pieces) (truthful : Truthful split l) : validateCompletedChunkSizes s = none := by
  rw [truthful_iff made sound] at truthful
  have all : ∀ ps : List Piece, (∀ p ∈ ps, p ∈ pieces) →
      checkSizes s (ps.map (Piece.ref [])) = none := by
    intro ps
    induction ps with
    | nil => exact fun _ => rfl
    | cons p ps ih =>
      intro sub
      have rest := ih fun q hq => sub q (List.mem_cons_of_mem _ hq)
      have joined := b.join (p.ref [])
      rw [truthful p (sub p List.mem_cons_self), joinChunks] at joined
      obtain ⟨byIndex, found, joined⟩ := Option.bind_eq_some_iff.mp joined
      rw [List.map_cons, checkSizes, found]
      split at joined
      · cases joined
      · rename_i enough
        obtain ⟨parts, gathered, flat⟩ := Option.map_eq_some_iff.mp joined
        simp only [if_neg enough, gathered, flat]
        simpa [Piece.ref] using rest
  rw [validateCompletedChunkSizes, b.manifest]
  split
  · rfl
  · rename_i m there
    split at there
    · obtain rfl := Option.some.inj there
      rw [made.refs]
      exact all pieces fun p hp => hp
    · cases there

/-! ## One packet -/

/-- If the manifest is the last of `l`, no stray holds a slot. -/
def Cleared (split : JSONSplitResult) (l : List JSONTransportPacket) : Prop :=
  l.getLast? = some (.manifest split.manifest) →
    ∀ c ∈ admitted split false l, holder split l c.cid c.index = some c → ¬ Stray split c

instance (split : JSONSplitResult) (l : List JSONTransportPacket) : Decidable (Cleared split l) := by
  unfold Cleared
  infer_instance

/-- The strays among `l` do no harm: something comes after the manifest if one of them holds
a slot, and with them the first chunks still say the message's strings. -/
structure HarmlessStrays (split : JSONSplitResult) (l : List JSONTransportPacket) : Prop where
  cleared : Cleared split l
  truthful : Truthful split l

/-- What is assembled when the last of `l` has come. -/
structure Yields (split : JSONSplitResult) (doc : Json) (l : List JSONTransportPacket)
    (out : Option Json) : Prop where
  due : ∀ j, out = some j → Due split l ∧ Cleared split l ∧ (j = doc ↔ Truthful split l)
  doc : Due split l → HarmlessStrays split l → out = some doc

theorem cleared_of_later (later : q ≠ .manifest split.manifest) : Cleared split (l ++ [q]) := by
  intro last
  rw [List.getLast?_concat] at last
  exact absurd (Option.some.inj last) later

theorem Buffered.finish (b : Buffered split l s) (made : MadeOf cid split pieces doc)
    (sound : Sound pieces) (cleared : Cleared split l) (reports : List Report) :
    ∃ reports' out, finishState s reports = (s, reports', out) ∧ Yields split doc l out := by
  rw [finishState]
  by_cases due : Due split l
  · obtain ⟨j, assembled, same⟩ := b.assemble made sound due
    cases sizes : validateCompletedChunkSizes s with
    | some r =>
      refine ⟨_, _, rfl, fun _ out => ?_, fun _ h => ?_⟩
      · cases out
      · rw [b.sizes made sound h.truthful] at sizes
        cases sizes
    | none =>
      simp only [assembled]
      refine ⟨_, _, rfl, fun j' out => ?_, fun _ h => ?_⟩
      · split at out
        · cases out
        · obtain rfl := Option.some.inj out
          exact ⟨due, cleared, same⟩
      · have solid : falsy doc = false := by
          rcases made.solid with ⟨items, rfl⟩ | ⟨props, rfl⟩ <;> rfl
        rw [same.mpr h.truthful, solid]
        rfl
  · have nothing : assembleJSON s = .ok none := by
      cases own : s.manifest with
      | none => rw [assembleJSON, own]
      | some m =>
        have there := b.manifest
        rw [own] at there
        split at there
        · rename_i mem
          obtain rfl := Option.some.inj there
          refine assembleJSON_unready own fun ready => due ⟨mem, ?_, fun ref hr => ?_⟩
          · exact of_decide_eq_true (b.complete.symm.trans ready.1)
          · rw [← b.join]
            exact ready.2.2 ref hr
        · cases there
    rw [nothing]
    have none_due : Yields split doc l none := by
      refine ⟨fun _ out => ?_, fun h => absurd h due⟩
      cases out
    cases validateCompletedChunkSizes s <;> exact ⟨_, _, rfl, none_due⟩

/-- The check of the buffered chunks, slot by slot. -/
theorem validateBuffered_iff (m : JSONManifestPacket) (s : JSONReceiveState) :
    validateBufferedChunks m s = none ↔
      ∀ x i c, s.chunk? x i = some c → validateChunkForManifest m c = none := by
  rw [validateBufferedChunks, List.findSome?_eq_none_iff]
  constructor
  · intro h x i c held
    obtain ⟨byIndex, found, held⟩ := Option.bind_eq_some_iff.mp held
    apply h
    rw [List.mem_flatMap]
    refine ⟨(x, byIndex), Dict.get?_eq_some.mp found, ?_⟩
    exact List.mem_map.mpr ⟨(i, c), Dict.get?_eq_some.mp held, rfl⟩
  · intro h c hc
    obtain ⟨⟨x, byIndex⟩, he, hc⟩ := List.mem_flatMap.mp hc
    obtain ⟨⟨i, c'⟩, hi, rfl⟩ := List.mem_map.mp hc
    apply h x i
    rw [JSONReceiveState.chunk?, Dict.get?_eq_some.mpr he, Option.bind_some,
      Dict.get?_eq_some.mpr hi]

/-- A packet of the message, or some chunk of its tid. -/
def Bound (split : JSONSplitResult) (q : JSONTransportPacket) : Prop :=
  q ∈ split.packets ∨ ∃ c, q = .chunk c ∧ c.tid = split.tid

theorem Bound.tid (made : MadeOf cid split pieces doc) (h : Bound split q) : q.tid = split.tid := by
  rcases h with own | ⟨c, rfl, same⟩
  · exact made.packets_tid q own
  · exact same

theorem Bound.wf (made : MadeOf cid split pieces doc) (h : Bound split q) : q.Wf := by
  rcases h with own | ⟨c, rfl, -⟩
  · exact made.packets_wf q own
  · trivial

theorem Bound.data (h : Bound split q) : q.isData = true := by
  rcases h with own | ⟨c, rfl, -⟩
  · exact packets_data split q own
  · rfl

theorem Buffered.take_manifest (b : Buffered split l s) :
    Buffered split (l ++ [.manifest split.manifest])
      { s with manifest := some split.manifest } where
  manifest := by simp
  complete := by simp [b.complete]
  chunk x i := by
    have turned : admits split (decide (.manifest split.manifest ∈ l))
      (.manifest split.manifest) = none := rfl
    rw [holder_turned turned]
    exact b.chunk x i
  waiting := b.waiting

theorem Buffered.take_complete (b : Buffered split l s) :
    Buffered split (l ++ [.complete split.tid]) { s with complete := true } where
  manifest := by simp [b.manifest]
  complete := by simp
  chunk x i := by
    have turned : admits split (decide (.manifest split.manifest ∈ l)) (.complete split.tid) =
      none := rfl
    rw [holder_turned turned]
    exact b.chunk x i
  waiting := b.waiting

/-- The check after the manifest was stored. -/
theorem Buffered.cleared_iff (b : Buffered split (l ++ [.manifest split.manifest]) s)
    (made : MadeOf cid split pieces doc) (sound : Sound pieces)
    (bound : ∀ p ∈ l ++ [.manifest split.manifest], Bound split p) :
    validateBufferedChunks split.manifest s = none ↔
      Cleared split (l ++ [.manifest split.manifest]) := by
  have own : ∀ c ∈ admitted split false (l ++ [.manifest split.manifest]), c.tid = split.tid :=
    fun c mem => (bound _ (mem_admitted mem).1).tid made
  rw [validateBuffered_iff]
  constructor
  · intro valid _ c mem first
    rw [← b.chunk] at first
    exact (validateChunk_iff made sound (own c mem)).mp (valid _ _ c first)
  · intro cleared x i c held
    rw [b.chunk] at held
    obtain ⟨mem, rfl, rfl⟩ := holder_some held
    rw [validateChunk_iff made sound (own c mem)]
    exact cleared List.getLast?_concat c mem held

/-- **One packet.** -/
theorem Buffered.absorb (b : Buffered split l s) (made : MadeOf cid split pieces doc)
    (sound : Sound pieces) (bound : ∀ p ∈ l ++ [q], Bound split p)
    (once : .manifest split.manifest ∈ l → q ≠ .manifest split.manifest) (reliable : Bool)
    (now : Nat) :
    ∃ s' reports out, LemonModel.absorb reliable now s q = (s', reports, out) ∧
      Buffered split (l ++ [q]) s' ∧ Yields split doc (l ++ [q]) out := by
  have chunk : ∀ c : JSONChunkPacket, c.tid = split.tid →
      ∃ s' reports out, LemonModel.absorb reliable now s (.chunk c) = (s', reports, out) ∧
        Buffered split (l ++ [.chunk c]) s' ∧ Yields split doc (l ++ [.chunk c]) out := by
    intro c own
    have taken := b.take_chunk made sound own reliable now
    simp only [LemonModel.absorb]
    generalize acceptChunk reliable now s c = r at taken
    obtain ⟨s', rejected⟩ := r
    obtain ⟨reports, out, finished, yields⟩ :=
      taken.finish made sound (cleared_of_later (by simp)) rejected.toList
    exact ⟨s', reports, out, finished, taken, yields⟩
  rcases bound q (by simp) with hq | ⟨c, rfl, own⟩
  · rcases mem_splitPackets.mp hq with rfl | ⟨c, hc, rfl⟩ | rfl
    · have absent : s.manifest = none := b.manifest.trans (if_neg fun h => once h rfl)
      have valid := (validateManifest_none made).mpr sound
      have taken := b.take_manifest
      have cleared := taken.cleared_iff made sound bound
      simp only [LemonModel.absorb, acceptManifest, absent, valid]
      cases buffered : validateBufferedChunks split.manifest
        { s with manifest := some split.manifest } with
      | some r =>
        -- `acceptManifest` returned false: nothing is assembled now
        refine ⟨_, _, _, rfl, taken, fun _ out => ?_, fun _ h => ?_⟩
        · cases out
        · rw [cleared.mpr h.cleared] at buffered
          cases buffered
      | none =>
        obtain ⟨reports, out, finished, yields⟩ :=
          taken.finish made sound (cleared.mp buffered) []
        exact ⟨_, reports, out, finished, taken, yields⟩
    · obtain ⟨p, -, index, h, rfl⟩ := (made.chunks c).mp hc
      exact chunk _ rfl
    · obtain ⟨reports, out, finished, yields⟩ :=
        b.take_complete.finish made sound (cleared_of_later (by simp)) []
      exact ⟨_, reports, out, finished, b.take_complete, yields⟩
  · exact chunk c own

/-! ## Where the message stands -/

variable {v w : View} {t t' : Transport} {listeners : List Nat} {listener : Nat} {js : List Json}

/-- The listeners were told `js`, and without a manifest they are told nothing more. -/
structure Shut (listeners : List Nat) (js : List Json) (v : View) : Prop where
  bare : ∀ s, v.state = some s → s.manifest = none
  told : ∀ listener ∈ listeners, v.told listener = js

/-- The packets `l` have come and nothing was assembled. -/
structure Gathering (split : JSONSplitResult) (listeners : List Nat) (l : List JSONTransportPacket)
    (v : View) : Prop where
  fresh : v.memory = none
  buffered : Buffered split l (v.state.getD (.fresh split.tid 0))
  silent : ∀ listener ∈ listeners, v.told listener = []
  early : Due split l → ¬ HarmlessStrays split l

/-- Where a message stands whose packets `l` have come, strays among them. -/
inductive Standing (split : JSONSplitResult) (doc : Json) (listeners : List Nat)
    (l : List JSONTransportPacket) (v : View) : Prop where
  | unsound (bad : validateManifest split.manifest ≠ none) (shut : Shut listeners [] v)
  | waiting (valid : validateManifest split.manifest = none) (waits : Gathering split listeners l v)
  | heard (valid : validateManifest split.manifest = none) (j : Json) (shut : Shut listeners [j] v)
    (due : Due split l) (cleared : Cleared split l) (same : j = doc ↔ Truthful split l)

/-- The state and what the listeners were told are as they were. -/
structure Unmoved (v w : View) : Prop where
  state : w.state = v.state
  memory : v.memory = none → w.memory = none
  told : ∀ listener, w.told listener = v.told listener

theorem Shut.unmoved (h : Shut listeners js v) (unmoved : Unmoved v w) : Shut listeners js w := by
  refine ⟨?_, fun listener mem => (unmoved.told listener).trans (h.told listener mem)⟩
  rw [unmoved.state]
  exact h.bare

theorem Standing.unmoved (h : Standing split doc listeners l v) (unmoved : Unmoved v w) :
    Standing split doc listeners l w := by
  cases h with
  | unsound bad shut => exact .unsound bad (shut.unmoved unmoved)
  | waiting valid waits =>
    refine .waiting valid ⟨unmoved.memory waits.fresh, ?_, fun listener mem => ?_, waits.early⟩
    · rw [unmoved.state]
      exact waits.buffered
    · rw [unmoved.told]
      exact waits.silent listener mem
  | heard valid j shut due cleared same => exact .heard valid j (shut.unmoved unmoved) due cleared same

theorem unmoved_lapse {tid : JSString} (lapse : View.Lapse tid v w) : Unmoved v w := by
  refine ⟨lapse.state_eq, fun fresh => ?_, told_lapse lapse⟩
  rw [Lapse.of_none lapse fresh]
  exact fresh

theorem unmoved_fireNack (v : View) : Unmoved v v.fireNack := by
  obtain ⟨state, memory, told⟩ := fireNack_frame v
  exact ⟨state, memory.trans, told⟩

/-! ## A packet -/

/-- Without a manifest, and none that passes its check to come. -/
theorem Shut.packet (h : Shut listeners js (t.view q.tid)) (live : t.expiredPartials = [])
    (wf : q.Wf) (data : q.isData) (bad : ∀ m, q = .manifest m → validateManifest m ≠ none) :
    Shut listeners js ((t.deliver q.wire).view q.tid) := by
  have open_ : t.reliable = none ∨ (t.view q.tid).memory = none →
      Shut listeners js ((t.deliver q.wire).view q.tid) := by
    intro fresh
    have bare : ((t.view q.tid).opened q.tid t.now).manifest = none := by
      rw [opened_eq]
      cases hs : (t.view q.tid).state with
      | none => rfl
      | some s => exact h.bare s hs
    obtain ⟨kept, nothing⟩ := absorb_shapeless bare bad t.reliable.isSome t.now
    generalize absorbed : absorb t.reliable.isSome t.now ((t.view q.tid).opened q.tid t.now) q = r
      at kept nothing
    obtain ⟨s, reports, out⟩ := r
    obtain rfl : out = none := nothing
    rw [Transport.deliver_waiting wf data fresh live absorbed]
    refine ⟨?_, fun listener mem => ?_⟩
    · rintro s' ⟨⟩
      exact kept
    · exact (told_complain _ q.tid reports listener).trans (h.told listener mem)
  cases mode : t.reliable with
  | none => exact open_ (.inl mode)
  | some o =>
    cases settled : (t.view q.tid).memory with
    | none => exact open_ (.inr settled)
    | some entry =>
      rw [Transport.deliver_settled wf data mode settled]
      split
      · exact ⟨h.bare, h.told⟩
      · exact h

theorem Gathering.absorb (h : Gathering split t.listeners l (t.view split.tid))
    (made : MadeOf cid split pieces doc) (valid : validateManifest split.manifest = none)
    (bound : ∀ p ∈ l ++ [q], Bound split p)
    (once : .manifest split.manifest ∈ l → q ≠ .manifest split.manifest) :
    ∃ s reports out, LemonModel.absorb t.reliable.isSome t.now
        ((t.view split.tid).opened split.tid t.now) q = (s, reports, out) ∧
      Buffered split (l ++ [q]) s ∧ Yields split doc (l ++ [q]) out := by
  have opened := h.buffered.touch t.now
  rw [← opened_eq] at opened
  exact opened.absorb made ((validateManifest_none made).mp valid) bound once t.reliable.isSome t.now

theorem Gathering.packet (h : Gathering split t.listeners l (t.view split.tid))
    (made : MadeOf cid split pieces doc) (valid : validateManifest split.manifest = none)
    (nodup : t.listeners.Nodup) (live : t.expiredPartials = [])
    (bound : ∀ p ∈ l ++ [q], Bound split p)
    (once : .manifest split.manifest ∈ l → q ≠ .manifest split.manifest) :
    Standing split doc t.listeners (l ++ [q]) ((t.deliver q.wire).view split.tid) := by
  have own := bound q (by simp)
  have tid := own.tid made
  obtain ⟨s, reports, out, absorbed, buffered, yields⟩ := h.absorb made valid bound once
  have fresh := h.fresh
  have silent := h.silent
  rw [← tid] at fresh silent absorbed ⊢
  cases out with
  | none =>
    rw [Transport.deliver_waiting (own.wf made) own.data (.inr fresh) live absorbed]
    refine .waiting valid ⟨fresh, buffered, fun listener mem => ?_, fun due harmless => ?_⟩
    · exact (told_complain _ q.tid reports listener).trans (silent listener mem)
    · cases yields.doc due harmless
  | some j =>
    obtain ⟨gone, told⟩ :=
      Transport.deliver_last (own.wf made) own.data (.inr fresh) live nodup absorbed
    obtain ⟨due, cleared, same⟩ := yields.due j rfl
    refine .heard valid j ⟨?_, fun listener mem => ?_⟩ due cleared same
    · rw [gone]
      exact nofun
    · rw [told listener mem, silent listener mem]

theorem Due.append (h : Due split l) (l' : List JSONTransportPacket) : Due split (l ++ l') where
  manifest := List.mem_append_left l' h.manifest
  complete := List.mem_append_left l' h.complete
  filled ref hr := by
    obtain ⟨text, full⟩ := Option.isSome_iff_exists.mp (h.filled ref hr)
    rw [spelled_append full]
    rfl

/-- What is due keeps what it says. -/
theorem Due.truthful_append (h : Due split l) (l' : List JSONTransportPacket) :
    Truthful split (l ++ l') ↔ Truthful split l := by
  refine forall₂_congr fun ref hr => ?_
  obtain ⟨text, full⟩ := Option.isSome_iff_exists.mp (h.filled ref hr)
  rw [spelled_append full, full]

theorem Standing.packet (h : Standing split doc t.listeners l (t.view split.tid))
    (made : MadeOf cid split pieces doc) (nodup : t.listeners.Nodup)
    (live : t.expiredPartials = []) (bound : ∀ p ∈ l ++ [q], Bound split p)
    (once : validateManifest split.manifest = none → .manifest split.manifest ∈ l →
      q ≠ .manifest split.manifest) :
    Standing split doc t.listeners (l ++ [q]) ((t.deliver q.wire).view split.tid) := by
  have own := bound q (by simp)
  have tid := own.tid made
  have manifest : ∀ m, q = .manifest m → m = split.manifest := by
    rintro m rfl
    rcases own with hq | ⟨c, hq, -⟩
    · simpa using mem_splitPackets.mp hq
    · cases hq
  cases h with
  | unsound bad shut =>
    rw [← tid] at shut ⊢
    refine .unsound bad (shut.packet live (own.wf made) own.data fun m hm => ?_)
    rw [manifest m hm]
    exact bad
  | waiting valid waits => exact waits.packet made valid nodup live bound (once valid)
  | heard valid j shut due cleared same =>
    have later := once valid due.manifest
    rw [← tid] at shut ⊢
    refine .heard valid j (shut.packet live (own.wf made) own.data fun m hm => ?_) (due.append [q])
      (cleared_of_later later) (same.trans (due.truthful_append [q]).symm)
    rw [hm, manifest m hm] at later
    exact absurd rfl later

/-! ## Whole runs -/

theorem keyed_iff (t : Transport) (x : JSString) :
    t.Keyed x ↔ ∀ s, (t.view x).state = some s → s.tid = x := Iff.rfl

/-- A packet leaves states under their tids. -/
theorem keyed_packet (keyed : t.Keyed q.tid) (nodup : t.listeners.Nodup)
    (live : t.expiredPartials = []) (wf : q.Wf) (data : q.isData) :
    (t.deliver q.wire).Keyed q.tid := by
  have open_ : t.reliable = none ∨ (t.view q.tid).memory = none →
      (t.deliver q.wire).Keyed q.tid := by
    intro fresh
    rw [keyed_iff] at keyed ⊢
    intro s hs
    have own : ((t.view q.tid).opened q.tid t.now).tid = q.tid := by
      rw [opened_eq]
      cases known : (t.view q.tid).state with
      | none => rfl
      | some s => exact keyed s known
    have kept := absorb_tid t.reliable.isSome t.now ((t.view q.tid).opened q.tid t.now) q
    generalize absorbed : absorb t.reliable.isSome t.now ((t.view q.tid).opened q.tid t.now) q = r
      at kept
    obtain ⟨s', reports, out⟩ := r
    cases out with
    | none =>
      rw [Transport.deliver_waiting wf data fresh live absorbed] at hs
      obtain rfl : s' = s := Option.some.inj hs
      exact kept.trans own
    | some j =>
      rw [(Transport.deliver_last wf data fresh live nodup absorbed).1] at hs
      cases hs
  cases mode : t.reliable with
  | none => exact open_ (.inl mode)
  | some o =>
    cases settled : (t.view q.tid).memory with
    | none => exact open_ (.inr settled)
    | some entry =>
      rw [keyed_iff] at keyed ⊢
      intro s hs
      rw [Transport.deliver_settled wf data mode settled] at hs
      split at hs
      · exact keyed s hs
      · exact keyed s hs

/-- Where the transport stands to which the packets `l` have come. -/
structure Strewn (split : JSONSplitResult) (doc : Json) (listeners : List Nat)
    (l : List JSONTransportPacket) (t : Transport) : Prop where
  listening : t.listeners = listeners
  keyed : ∀ x, t.Keyed x
  silent : ∀ x, x ≠ split.tid → ∀ listener, (t.view x).told listener = []
  stands : Standing split doc listeners l (t.view split.tid)

theorem Strewn.unmoved (h : Strewn split doc listeners l t) (listening : t'.listeners = t.listeners)
    (unmoved : ∀ x, Unmoved (t.view x) (t'.view x)) : Strewn split doc listeners l t' := by
  refine ⟨listening.trans h.listening, fun x => ?_, fun x other listener => ?_,
    h.stands.unmoved (unmoved split.tid)⟩
  swap
  · exact ((unmoved x).told listener).trans (h.silent x other listener)
  have before := h.keyed x
  rw [keyed_iff] at before ⊢
  rw [(unmoved x).state]
  exact before

theorem Strewn.fireNack (h : Strewn split doc listeners l t) (x : JSString) :
    Strewn split doc listeners l (complete (t.fireNack x)) := by
  apply h.unmoved (Transport.fireNack_receives t x).listeners
  intro y
  rw [Transport.view_fireNack (h.keyed x)]
  split
  · exact unmoved_fireNack _
  · exact ⟨rfl, id, fun _ => rfl⟩

theorem Strewn.cleanup (h : Strewn split doc listeners l t) (live : t.expiredPartials = []) :
    Strewn split doc listeners l t.cleanup := by
  apply h.unmoved Transport.receives_cleanup.listeners
  intro y
  apply unmoved_lapse
  apply Transport.view_cleanup_live
  rw [live]
  exact List.not_mem_nil

theorem Strewn.advance (h : Strewn split doc listeners l t) (n : Nat) :
    Strewn split doc listeners l { t with now := t.now + n } :=
  h.unmoved rfl fun _ => ⟨rfl, id, fun _ => rfl⟩

theorem Strewn.packet (h : Strewn split doc listeners l t) (made : MadeOf cid split pieces doc)
    (nodup : listeners.Nodup) (live : t.expiredPartials = [])
    (bound : ∀ p ∈ l ++ [q], Bound split p)
    (once : validateManifest split.manifest = none → .manifest split.manifest ∈ l →
      q ≠ .manifest split.manifest) :
    Strewn split doc listeners (l ++ [q]) (t.deliver q.wire) := by
  obtain rfl := h.listening
  have own := bound q (by simp)
  have lapse : ∀ x, x ≠ q.tid → View.Lapse x (t.view x) ((t.deliver q.wire).view x) := by
    intro x other
    apply Transport.deliver_other
    · rw [readPacket_wire (own.wf made)]
      rintro p ⟨⟩
      exact other.symm
    · rw [live]
      exact List.not_mem_nil
  refine ⟨(Transport.deliver_fixed t q.wire).listeners, fun x => ?_, fun x other listener => ?_,
    h.stands.packet made nodup live bound once⟩
  · by_cases same : x = q.tid
    · rw [same]
      exact keyed_packet (h.keyed q.tid) nodup live (own.wf made) own.data
    · have before := h.keyed x
      rw [keyed_iff] at before ⊢
      rw [(lapse x same).state_eq]
      exact before
  · rw [← own.tid made] at other
    rw [told_lapse (lapse x other)]
    exact h.silent x (own.tid made ▸ other) listener

theorem Strewn.run (made : MadeOf cid split pieces doc) (nodup : listeners.Nodup)
    {good : Transport → Input → Prop} (live : ∀ t i, good t i → t.expiredPartials = [])
    {is : List Input} (run : Run Transport.input good t is t') {ps : List JSONTransportPacket}
    (texts : is.filterMap Input.text? = ps.map JSONTransportPacket.wire)
    (bound : ∀ p ∈ l ++ ps, Bound split p)
    (once : validateManifest split.manifest = none → ∀ b,
      b ++ [.manifest split.manifest] <+: l ++ ps → .manifest split.manifest ∉ b)
    (h : Strewn split doc listeners l t) : Strewn split doc listeners (l ++ ps) t' := by
  apply run_arrivals (Strewn split doc listeners) _ _ _ _ live run texts rfl h
  · intro l t q h live pre
    refine h.packet made nodup live (fun p hp => bound p (pre.subset hp)) ?_
    rintro valid seen rfl
    exact once valid l pre seen
  · intro l t x h _ _
    exact h.fireNack x
  · intro l t h live
    exact h.cleanup live
  · intro l t n h
    exact h.advance n

theorem strewn_start (split : JSONSplitResult) (doc : Json) (options : SplitOptions)
    (partialTtlMs now : Nat) (mode : Option ReliableOptions) (listeners : List Nat) :
    Strewn split doc (Transport.listening options partialTtlMs mode now listeners).listeners []
      (.listening options partialTtlMs mode now listeners) := by
  obtain ⟨states, settled, timers, log⟩ := listening_idle options partialTtlMs mode now listeners
  have blank : (Transport.listening options partialTtlMs mode now listeners).view split.tid =
      ⟨none, none, false, []⟩ := by
    simp [Transport.view, states, settled, timers, log]
  refine ⟨rfl, fun x s hs => ?_, fun x _ listener => ?_, ?_⟩
  · rw [states] at hs
    cases hs
  · rw [View.told, Transport.view, log]
    rfl
  · rw [blank]
    cases valid : validateManifest split.manifest with
    | some r =>
      refine .unsound ?_ ⟨fun _ held => ?_, fun _ _ => rfl⟩
      · rw [valid]
        exact Option.some_ne_none r
      · cases held
    | none =>
      refine .waiting valid ⟨rfl, buffered_fresh _ _ _, fun _ _ => rfl, fun due => ?_⟩
      cases due.manifest

/-- Nobody was told of another tid. -/
theorem heard_of_silent {tid : JSString}
    (silent : ∀ x, x ≠ tid → (t.view x).told listener = []) :
    t.heard listener = (t.view tid).told listener := by
  have own : ∀ p ∈ t.log.filterMap (Effect.told? listener), decide (p.1 = tid) = true := by
    intro p hp
    by_contra other
    have nothing := silent p.1 (by simpa using other)
    rw [← told_view, List.map_eq_nil_iff, List.filter_eq_nil_iff] at nothing
    exact nothing p hp (by simp)
  rw [heard_told, ← told_view, List.filter_eq_self.mpr own]

theorem Strewn.heard_bad (h : Strewn split doc listeners l t) (mem : listener ∈ listeners)
    (bad : validateManifest split.manifest ≠ none) : t.heard listener = [] := by
  rw [heard_of_silent fun x other => h.silent x other listener]
  cases h.stands with
  | unsound _ shut => exact shut.told listener mem
  | waiting valid _ => exact absurd valid bad
  | heard valid => exact absurd valid bad

/-- Once every packet of the message has come. -/
theorem Strewn.heard_iff (h : Strewn split doc listeners l t) (made : MadeOf cid split pieces doc)
    (mem : listener ∈ listeners) (valid : validateManifest split.manifest = none)
    (all : ∀ q ∈ split.packets, q ∈ l) : t.heard listener = [doc] ↔ HarmlessStrays split l := by
  rw [heard_of_silent fun x other => h.silent x other listener]
  cases h.stands with
  | unsound bad _ => exact absurd valid bad
  | waiting _ waits =>
    rw [waits.silent listener mem]
    refine iff_of_false (List.cons_ne_nil doc []).symm fun harmless => waits.early ?_ harmless
    have sound := (validateManifest_none made).mp valid
    refine ⟨all _ (mem_splitPackets.mpr (.inl rfl)), all _ (mem_splitPackets.mpr (.inr (.inr rfl))),
      fun ref hr => ?_⟩
    have spells := (truthful_iff made sound).mp harmless.truthful
    rw [made.refs] at hr
    obtain ⟨p, hp, rfl⟩ := List.mem_map.mp hr
    rw [spells p hp]
    rfl
  | heard _ j shut _ cleared same =>
    rw [shut.told listener mem, List.cons.injEq, same]
    exact ⟨fun truthful => ⟨cleared, truthful.1⟩, fun harmless => ⟨harmless.truthful, rfl⟩⟩

/-! ## With and without strays -/

def strayPacket (split : JSONSplitResult) : JSONTransportPacket → Bool
  | .chunk c => Stray split c
  | _ => false

theorem bound_of_order {ps : List JSONTransportPacket}
    (order : (ps.filter fun p => !strayPacket split p).Perm split.packets) :
    ∀ p ∈ ps, Bound split p := by
  intro p hp
  cases stray : strayPacket split p with
  | false =>
    left
    apply order.mem_iff.mp
    rw [List.mem_filter, stray]
    exact ⟨hp, rfl⟩
  | true =>
    cases p with
    | chunk c => exact .inr ⟨c, rfl, (of_decide_eq_true stray).1⟩
    | _ => cases stray

theorem manifest_once {ps : List JSONTransportPacket}
    (order : (ps.filter fun p => !strayPacket split p).Perm split.packets) :
    ∀ l, l ++ [.manifest split.manifest] <+: ps → .manifest split.manifest ∉ l := by
  intro l pre seen
  have one : split.packets.count (.manifest split.manifest) = 1 := by
    rw [JSONSplitResult.packets, List.count_cons_self, List.count_append,
      List.count_eq_zero.mpr (by simp), List.count_eq_zero.mpr (by simp)]
  have kept : (ps.filter fun p => !strayPacket split p).count (.manifest split.manifest) =
      ps.count (.manifest split.manifest) := List.count_filter rfl
  have twice := pre.sublist.count_le (.manifest split.manifest)
  rw [List.count_append, List.count_singleton_self, ← kept, order.count_eq, one] at twice
  have positive := List.count_pos_iff.mpr seen
  omega

/-- Where no stray is admitted and every chunk has come, nothing is disturbed. -/
theorem harmless_of_own (made : MadeOf cid split pieces doc) (sound : Sound pieces)
    (all : ∀ c ∈ split.chunks, .chunk c ∈ l)
    (only : ∀ c ∈ admitted split false l, c ∈ split.chunks) : HarmlessStrays split l := by
  refine ⟨fun _ c mem _ => own_chunk made (only c mem), ?_⟩
  rw [truthful_iff made sound]
  exact fun p hp => spelled_own made sound all only hp

theorem harmless_of_perm (made : MadeOf cid split pieces doc) (sound : Sound pieces)
    {ps : List JSONTransportPacket} (order : ps.Perm split.packets) : HarmlessStrays split ps := by
  have own : ∀ c, .chunk c ∈ ps ↔ c ∈ split.chunks := by
    intro c
    rw [order.mem_iff, mem_splitPackets]
    simp
  exact harmless_of_own made sound (fun c => (own c).mpr) fun c mem => (own c).mp (mem_admitted mem).1

/-- **When strays change nothing.** A transport of either mode is given the packets of a
message in any order, once with strays at any positions and once without them, at any
pace that expires no partial. Its listeners hear the same both times exactly if the
message's manifest is refused anyway or the strays are harmless. -/
theorem strays_are_harmless {data : JSValue} {options : SplitOptions} {ids : Ids} (wf : data.Wf)
    (container : data.isContainer = true) (cut : splitJSON data options ids = some split)
    {ps : List JSONTransportPacket}
    (order : (ps.filter fun p => !strayPacket split p).Perm split.packets)
    {own : SplitOptions} {partialTtlMs now : Nat} {mode : Option ReliableOptions}
    {listeners : List Nat} {is is' : List Input} {t t' : Transport}
    (texts : is.filterMap Input.text? = ps.map JSONTransportPacket.wire)
    (texts' : is'.filterMap Input.text? =
      (ps.filter fun p => !strayPacket split p).map JSONTransportPacket.wire)
    (run : Run Transport.input Unexpired (.listening own partialTtlMs mode now listeners) is t)
    (run' : Run Transport.input Unexpired (.listening own partialTtlMs mode now listeners) is' t')
    {listener : Nat} (mem : listener ∈ listeners) :
    t.heard listener = t'.heard listener ↔
      (validateManifest split.manifest = none → HarmlessStrays split ps) := by
  obtain ⟨pieces, doc, -, made, -, -⟩ := splitJSON_madeOf wf container cut
  have nodup : (Transport.listening own partialTtlMs mode now listeners).listeners.Nodup :=
    onMessage_nodup listeners .nil
  have there := onMessage_mem (t := .create own partialTtlMs mode now) listeners (.inl mem)
  have start := strewn_start split doc own partialTtlMs now mode listeners
  have with_ := start.run made nodup (fun _ _ h => h) run texts
    (by simpa using bound_of_order order) fun _ => by simpa using manifest_once order
  have order' : ((ps.filter fun p => !strayPacket split p).filter fun p => !strayPacket split p).Perm
      split.packets := by
    simpa [List.filter_filter] using order
  have without := start.run made nodup (fun _ _ h => h) run' texts'
    (by simpa using bound_of_order order') fun _ => by simpa using manifest_once order'
  rw [List.nil_append] at with_ without
  cases valid : validateManifest split.manifest with
  | some r =>
    have bad : validateManifest split.manifest ≠ none := by
      rw [valid]
      exact Option.some_ne_none r
    rw [with_.heard_bad there bad, without.heard_bad there bad]
    exact iff_of_true rfl nofun
  | none =>
    have sound := (validateManifest_none made).mp valid
    have plain := (without.heard_iff made there valid fun q hq => order.mem_iff.mpr hq).mpr
      (harmless_of_perm made sound order)
    rw [plain, with_.heard_iff made there valid fun q hq => (List.mem_filter.mp
      (order.mem_iff.mpr hq)).1]
    exact ⟨fun h _ => h, fun h => h rfl⟩

/-! A string of two chunks and chunks nobody asked for. -/

/-- Of no ref. -/
def unasked : JSONTransportPacket :=
  .chunk ⟨note.tid, lit "x", 0, 1, lit "s", hashString (lit "s"), Nat.one_pos⟩

/-- In the slot of the first chunk. -/
def displacing : JSONTransportPacket :=
  .chunk ⟨note.tid, lit "c", 0, 3, lit "H", hashString (lit "H"), by decide⟩

/-- What the listener hears when these packets come. -/
def heardFrom (ps : List JSONTransportPacket) : Option (List Json) :=
  (exec Transport.input (.listening .default DEFAULT_PARTIAL_TTL_MS none 0 [0])
    (ps.map fun q => .packet q.wire)).map (·.heard 0)

/-- The packets of the note with a stray before its manifest and two after each packet. -/
def strewnNote : List JSONTransportPacket :=
  unasked :: note.split.packets.flatMap fun p => [p, unasked, displacing]

theorem strays_are_harmless_note :
    ∃ t t', exec Transport.input (.listening .default DEFAULT_PARTIAL_TTL_MS none 0 [0])
        (strewnNote.map fun q => .packet q.wire) = some t ∧
      exec Transport.input (.listening .default DEFAULT_PARTIAL_TTL_MS none 0 [0])
        (note.split.packets.map fun q => .packet q.wire) = some t' ∧ t.heard 0 = t'.heard 0 := by
  have texts (ps : List JSONTransportPacket) :
      (ps.map fun q => Input.packet q.wire).filterMap Input.text? =
        ps.map JSONTransportPacket.wire := by
    simp [List.filterMap_map, Function.comp_def, Input.text?]
  have own : (strewnNote.filter fun p => !strayPacket note.split p) = note.split.packets := by
    decide +kernel
  obtain ⟨t, run⟩ := Run.of_allGood Transport.input Unexpired
    (.listening .default DEFAULT_PARTIAL_TTL_MS none 0 [0])
    (strewnNote.map fun q => .packet q.wire) (by decide +kernel)
  obtain ⟨t', run'⟩ := Run.of_allGood Transport.input Unexpired
    (.listening .default DEFAULT_PARTIAL_TTL_MS none 0 [0])
    (note.split.packets.map fun q => .packet q.wire) (by decide +kernel)
  have same := strays_are_harmless (JSValue.wf_ofJson note.wf) rfl note.made
    (by rw [own]) (texts _) (by rw [own, texts]) run run' (List.mem_singleton.mpr rfl)
  exact ⟨t, t', run.exec_eq, run'.exec_eq, same.mpr fun _ => ⟨by decide +kernel, by decide +kernel⟩⟩

/-- A stray before the manifest, which comes last, stops the message; one that takes the
slot of a chunk goes into the value. -/
theorem strays_do_harm :
    strayPacket note.split unasked = true ∧ strayPacket note.split displacing = true ∧
      heardFrom note.split.packets.reverse = some [.obj [(lit "a", .str (lit "hi"))]] ∧
      heardFrom (unasked :: note.split.packets.reverse) = some [] ∧
      heardFrom note.split.packets = some [.obj [(lit "a", .str (lit "hi"))]] ∧
      heardFrom (displacing :: note.split.packets) = some [.obj [(lit "a", .str (lit "Hi"))]] := by
  decide +kernel

end LemonModel
