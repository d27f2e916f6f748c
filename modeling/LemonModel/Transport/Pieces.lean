import LemonModel.Transport.Places
import LemonModel.Transport.Split

/-!
# What a split leaves and what it takes out

`cloneAndSplit` takes strings out of a value, piece by piece, and leaves markers
in their places. `cloneAndSplit_cuts` says that its refs and chunks are those of
the pieces, and `Restores` that putting the pieces back into the markers gives
the copy that `cloneAndSplit` makes when it takes nothing out.
-/

namespace LemonModel

open Text

/-! ## The copy -/

mutual

/-- The copy `cloneAndSplit` makes, strings left in: what an object inherits is
lost, and an own `__proto__` too. -/
def JSValue.copy : JSValue → JSValue
  | .arr items => .arr (copyItems items)
  | .obj props _ => .obj (copyProps props) none
  | value => value

def copyItems : List JSValue → List JSValue
  | [] => []
  | x :: xs => x.copy :: copyItems xs

def copyProps : List (JSString × JSValue) → List (JSString × JSValue)
  | [] => []
  | (k, x) :: xs => if k = PROTO then copyProps xs else (k, x.copy) :: copyProps xs

end

/-! ## The strings that are cut out -/

/-- A place seen from the parent. -/
def Spot.below (k : JSString) (spot : List JSString × JSString) : List JSString × JSString :=
  (k :: spot.1, spot.2)

mutual

/-- The strings `shouldSplit` picks, with their places below the value. -/
def JSValue.spots (options : SplitOptions) (path : JSString) :
    JSValue → List (List JSString × JSString)
  | .str value => if shouldSplit path value (byteLength value) options then [([], value)] else []
  | .arr items => spotsItems options path 0 items
  | .obj props _ => spotsProps options path props
  | _ => []

def spotsItems (options : SplitOptions) (path : JSString) (index : Nat) :
    List JSValue → List (List JSString × JSString)
  | [] => []
  | item :: rest =>
    (item.spots options (path ++ unit '/' :: natText index)).map (Spot.below (natText index)) ++
      spotsItems options path (index + 1) rest

def spotsProps (options : SplitOptions) (path : JSString) :
    List (JSString × JSValue) → List (List JSString × JSString)
  | [] => []
  | (key, item) :: rest =>
    (item.spots options (path ++ unit '/' :: escapeJSONPointer key)).map (Spot.below key) ++
      spotsProps options path rest

end

theorem mem_spotsItems {options : SplitOptions} {path : JSString} {index : Nat}
    {items : List JSValue} {spot : List JSString × JSString}
    (h : spot ∈ spotsItems options path index items) :
    ∃ i x, items[i]? = some x ∧
      ∃ inner ∈ x.spots options (path ++ unit '/' :: natText (index + i)),
        spot = Spot.below (natText (index + i)) inner := by
  induction items generalizing index with
  | nil => cases h
  | cons x rest ih =>
    rcases List.mem_append.mp h with own | later
    · obtain ⟨inner, mem, rfl⟩ := List.mem_map.mp own
      exact ⟨0, x, rfl, inner, mem, rfl⟩
    · obtain ⟨i, y, found, inner, mem, rfl⟩ := ih later
      rw [Nat.add_assoc, Nat.add_comm 1 i] at mem ⊢
      exact ⟨i + 1, y, found, inner, mem, rfl⟩

theorem mem_spotsProps {options : SplitOptions} {path : JSString}
    {props : List (JSString × JSValue)} {spot : List JSString × JSString}
    (h : spot ∈ spotsProps options path props) :
    ∃ k x, (k, x) ∈ props ∧
      ∃ inner ∈ x.spots options (path ++ unit '/' :: escapeJSONPointer k),
        spot = Spot.below k inner := by
  induction props with
  | nil => cases h
  | cons p rest ih =>
    obtain ⟨k, x⟩ := p
    rcases List.mem_append.mp h with own | later
    · obtain ⟨inner, mem, rfl⟩ := List.mem_map.mp own
      exact ⟨k, x, List.mem_cons_self, inner, mem, rfl⟩
    · obtain ⟨k', y, found, rest⟩ := ih later
      exact ⟨k', y, List.mem_cons_of_mem _ found, rest⟩

/-! ## Pieces -/

/-- A string taken out of a value: where it was, and how it was cut. -/
structure Piece where
  place : List JSString
  cid : JSString
  value : JSString
  parts : List JSString
  ne : parts ≠ []

namespace Piece

def ref (path : JSString) (p : Piece) : JSONChunkRef :=
  ⟨p.cid, path ++ pathText p.place, lit "utf8", byteLength p.value, p.parts.length,
    List.length_pos_iff.mpr p.ne⟩

def packets (p : Piece) : List JSONChunkPacket := chunkPackets p.cid p.parts

def cut (p : Piece) : List JSString × Json := (p.place, .str p.value)

/-- The string, in its place. -/
def spot (p : Piece) : List JSString × JSString := (p.place, p.value)

/-- The marker left in its place. -/
def mark (p : Piece) : Json := .obj [(lit "$jsonTransportRef", .str p.cid)]

/-- A piece of a child, as a piece of its parent. -/
def below (k : JSString) (p : Piece) : Piece := { p with place := k :: p.place }

theorem ref_below (path k : JSString) (p : Piece) :
    (p.below k).ref path = p.ref (path ++ unit '/' :: escapeJSONPointer k) := by
  simp [ref, below, pathText_cons]

end Piece

/-- What a call of `cloneAndSplit` at `path` added to the refs and chunks. -/
structure Cuts (options : SplitOptions) (cid : Nat → JSString) (path : JSString)
    (out out' : SplitOutput) (pieces : List Piece) : Prop where
  refs : out'.refs = out.refs ++ pieces.map (Piece.ref path)
  chunks : out'.chunks = out.chunks ++ pieces.flatMap Piece.packets
  cids : pieces.map Piece.cid = (List.range' out.refs.length pieces.length).map cid
  parts : ∀ p ∈ pieces, splitStringByBytes p.value options.chunkBytes = some p.parts

/-- A piece below `__proto__` has no marker in the document; where there is none,
putting the pieces back gives the copy. -/
structure Restores (doc copied : Option Json) (pieces : List Piece) : Prop where
  none : doc = none → copied = none ∧ pieces = []
  marked : ∀ j ∈ doc, ∀ p ∈ pieces, walk j p.place = if PROTO ∈ p.place then .none else some p.mark
  filled : ∀ j ∈ doc, ∃ j' ∈ copied, (∀ p ∈ pieces, PROTO ∉ p.place) →
    fill (pieces.map Piece.cut) j = some j'

variable {options : SplitOptions} {cid : Nat → JSString} {path : JSString}

namespace Cuts

theorem nil (out : SplitOutput) : Cuts options cid path out out [] :=
  ⟨by simp, by simp, by simp, by simp⟩

theorem append {out₁ out₂ out₃ : SplitOutput} {a b : List Piece}
    (h₁ : Cuts options cid path out₁ out₂ a) (h₂ : Cuts options cid path out₂ out₃ b) :
    Cuts options cid path out₁ out₃ (a ++ b) where
  refs := by rw [h₂.refs, h₁.refs, List.map_append, List.append_assoc]
  chunks := by rw [h₂.chunks, h₁.chunks, List.flatMap_append, List.append_assoc]
  cids := by
    have len : out₂.refs.length = out₁.refs.length + a.length := by simp [h₁.refs]
    rw [List.map_append, h₁.cids, h₂.cids, len, List.length_append, ← List.map_append,
      List.range'_append_1]
  parts p hp := by
    rcases List.mem_append.mp hp with hp | hp
    · exact h₁.parts p hp
    · exact h₂.parts p hp

theorem below {out out' : SplitOutput} {pieces : List Piece} (k : JSString)
    (h : Cuts options cid (path ++ unit '/' :: escapeJSONPointer k) out out' pieces) :
    Cuts options cid path out out' (pieces.map (Piece.below k)) where
  refs := by
    rw [h.refs, List.map_map]
    exact congrArg _ (List.map_congr_left fun p _ => (p.ref_below path k).symm)
  chunks := by
    rw [h.chunks, List.flatMap_map]
    rfl
  cids := by
    rw [List.length_map, ← h.cids, List.map_map]
    rfl
  parts q hq := by
    obtain ⟨p, hp, rfl⟩ := List.mem_map.mp hq
    exact h.parts p hp

end Cuts

theorem natText_no_mark (n : Nat) : unit '~' ∉ natText n ∧ unit '/' ∉ natText n := by
  constructor
  · intro h
    exact absurd (natText_digits n _ h) (by decide)
  · intro h
    exact absurd (natText_digits n _ h) (by decide)

theorem escape_natText (n : Nat) : escapeJSONPointer (natText n) = natText n := by
  obtain ⟨tilde, slash⟩ := natText_no_mark n
  have plain : ∀ u ∈ natText n, escapeUnit u = [u] := by
    intro u hu
    have ht : u ≠ unit '~' := fun h => tilde (h ▸ hu)
    have hs : u ≠ unit '/' := fun h => slash (h ▸ hu)
    simp [escapeUnit, ht, hs]
  rw [escape_eq]
  generalize natText n = s at plain
  induction s with
  | nil => rfl
  | cons u s ih =>
    rw [List.flatMap_cons, plain u List.mem_cons_self,
      ih fun v hv => plain v (List.mem_cons_of_mem _ hv)]
    rfl

theorem natText_ne_proto (n : Nat) : natText n ≠ PROTO := by
  intro h
  have first : unit '_' ∈ natText n := by
    rw [h]
    decide
  exact absurd (natText_digits n _ first) (by decide)

/-! ## Members of an array or an object -/

/-- `Restores`, for a document and its copy. -/
structure Mends (j j' : Json) (pieces : List Piece) : Prop where
  marked : ∀ p ∈ pieces, walk j p.place = if PROTO ∈ p.place then none else some p.mark
  filled : (∀ p ∈ pieces, PROTO ∉ p.place) → fill (pieces.map Piece.cut) j = some j'

theorem Mends.restores {j j' : Json} {pieces : List Piece} (h : Mends j j' pieces) :
    Restores (some j) (some j') pieces where
  none h := by cases h
  marked := by
    rintro _ ⟨⟩
    exact h.marked
  filled := by
    rintro _ ⟨⟩
    exact ⟨j', rfl, h.filled⟩

theorem cut_below (k : JSString) (pieces : List Piece) :
    (pieces.map (Piece.below k)).map Piece.cut = under k (pieces.map Piece.cut) := by
  simp [under, Piece.cut, Piece.below]

theorem spots_below (k : JSString) (pieces : List Piece) :
    (pieces.map (Piece.below k)).map Piece.spot = (pieces.map Piece.spot).map (Spot.below k) := by
  simp [Spot.below, Piece.spot, Piece.below]

/-- What `cloneAndSplit` does to a value, as its parent needs it. -/
def Split (options : SplitOptions) (cid : Nat → JSString) (value : JSValue) : Prop :=
  ∀ path out w out', cloneAndSplit options cid path out value = some (w, out') →
    ∃ pieces, Cuts options cid path out out' pieces ∧
      pieces.map Piece.spot = value.spots options path ∧
      Restores w.image value.copy.image pieces

theorem places_below {k : JSString} {a b : List Piece} (h : ∀ p ∈ b, p.place ≠ []) :
    ∀ p ∈ a.map (Piece.below k) ++ b, p.place ≠ [] := by
  intro q hq
  rcases List.mem_append.mp hq with hq | hq
  · obtain ⟨p, _, rfl⟩ := List.mem_map.mp hq
    simp [Piece.below]
  · exact h q hq

theorem mends_item {i : Nat} {x x' : Json} {done rest rest' : List Json} {a b : List Piece}
    (len : done.length = i)
    (first : ∀ p ∈ a, walk x p.place = if PROTO ∈ p.place then none else some p.mark)
    (fills : (∀ p ∈ a, PROTO ∉ p.place) → fill (a.map Piece.cut) x = some x')
    (later : ∀ y, Mends (.arr (done ++ y :: rest)) (.arr (done ++ y :: rest')) b) :
    Mends (.arr (done ++ x :: rest)) (.arr (done ++ x' :: rest'))
      (a.map (Piece.below (natText i)) ++ b) where
  marked q hq := by
    rcases List.mem_append.mp hq with hq | hq
    · obtain ⟨p, hp, rfl⟩ := List.mem_map.mp hq
      have found : member (.arr (done ++ x :: rest)) (natText i) = some x :=
        member_item (by simp [← len])
      simpa [Piece.below, Piece.mark, walk, found, Ne.symm (natText_ne_proto i)] using first p hp
    · exact (later x).marked q hq
  filled clear := by
    have clearA : ∀ p ∈ a, PROTO ∉ p.place := by
      intro p hp hproto
      exact clear (p.below (natText i)) (List.mem_append_left _ (List.mem_map_of_mem hp))
        (List.mem_cons_of_mem _ hproto)
    have found : (done ++ x :: rest)[i]? = some x := by simp [← len]
    rw [List.map_append, fill_append, cut_below, fill_item found, fills clearA, Option.map_some,
      Option.bind_some]
    have placed : (done ++ x :: rest).set i x' = done ++ x' :: rest := by simp [← len]
    rw [placed]
    exact (later x').filled fun p hp => clear p (List.mem_append_right _ hp)

theorem cloneItems_cuts {items : List JSValue} (ih : ∀ x ∈ items, Split options cid x)
    {index : Nat} {out out' : SplitOutput} {ws : List JSValue}
    (h : cloneItems options cid path index out items = some (ws, out')) :
    ∃ pieces, Cuts options cid path out out' pieces ∧
      pieces.map Piece.spot = spotsItems options path index items ∧
      (∀ p ∈ pieces, p.place ≠ []) ∧
      ∀ done : List Json, done.length = index →
        Mends (.arr (done ++ imageItems ws)) (.arr (done ++ imageItems (copyItems items))) pieces := by
  induction items generalizing index out ws with
  | nil =>
    cases h
    exact ⟨[], .nil _, rfl, by simp, fun done _ => ⟨by simp, fun _ => rfl⟩⟩
  | cons x xs ihs =>
    rw [cloneItems, Option.bind_eq_bind, Option.bind_eq_some_iff] at h
    obtain ⟨⟨w, mid⟩, hx, h⟩ := h
    simp only [Option.bind_eq_bind, Option.bind_eq_some_iff] at h
    obtain ⟨⟨ws', out₂⟩, hxs, h⟩ := h
    cases h
    obtain ⟨a, cutsA, spotsA, restores⟩ := ih x List.mem_cons_self _ _ _ _ hx
    obtain ⟨b, cutsB, spotsB, places, mends⟩ :=
      ihs (fun y hy => ih y (List.mem_cons_of_mem _ hy)) hxs
    rw [← escape_natText index] at cutsA
    refine ⟨a.map (Piece.below (natText index)) ++ b, (cutsA.below _).append cutsB, ?_,
      places_below places, ?_⟩
    · rw [List.map_append, spots_below, spotsA, spotsB, spotsItems]
    intro done len
    have later : ∀ y, Mends (.arr (done ++ y :: imageItems ws'))
        (.arr (done ++ y :: imageItems (copyItems xs))) b := by
      intro y
      have := mends (done ++ [y]) (by simp [len])
      simpa using this
    rw [imageItems, copyItems, imageItems]
    cases hw : w.image with
    | none =>
      obtain ⟨copied, rfl⟩ := restores.none hw
      rw [copied]
      exact mends_item len (by simp) (fun _ => rfl) later
    | some j =>
      rw [hw] at restores
      obtain ⟨j', hj', filled⟩ := restores.filled j rfl
      rw [Option.mem_def.mp hj']
      exact mends_item len (restores.marked j rfl) filled later

theorem mends_member {k : JSString} {x x' : Json} {done rest rest' : List (JSString × Json)}
    {a b : List Piece} (hk : k ≠ PROTO)
    (nodup : ((done ++ (k, x) :: rest).map Prod.fst).Nodup)
    (first : ∀ p ∈ a, walk x p.place = if PROTO ∈ p.place then none else some p.mark)
    (fills : (∀ p ∈ a, PROTO ∉ p.place) → fill (a.map Piece.cut) x = some x')
    (later : ∀ y, Mends (.obj (done ++ (k, y) :: rest)) (.obj (done ++ (k, y) :: rest')) b) :
    Mends (.obj (done ++ (k, x) :: rest)) (.obj (done ++ (k, x') :: rest'))
      (a.map (Piece.below k) ++ b) where
  marked q hq := by
    rcases List.mem_append.mp hq with hq | hq
    · obtain ⟨p, hp, rfl⟩ := List.mem_map.mp hq
      have before : k ∉ done.map Prod.fst := by
        rw [List.map_append, List.map_cons, List.nodup_append] at nodup
        exact fun h => nodup.2.2 k h k (by simp) rfl
      have found : member (.obj (done ++ (k, x) :: rest)) k = some x := lookup_append_cons x before
      simpa [Piece.below, Piece.mark, walk, found, Ne.symm hk] using first p hp
    · exact (later x).marked q hq
  filled clear := by
    have clearA : ∀ p ∈ a, PROTO ∉ p.place := by
      intro p hp hproto
      exact clear (p.below k) (List.mem_append_left _ (List.mem_map_of_mem hp))
        (List.mem_cons_of_mem _ hproto)
    rw [List.map_append, fill_append, cut_below, fill_member nodup, fills clearA, Option.map_some,
      Option.bind_some]
    exact (later x').filled fun p hp => clear p (List.mem_append_right _ hp)

/-- Pieces below an own `__proto__` have no place in the document. -/
theorem mends_proto {doc doc' : List (JSString × Json)} {a b : List Piece}
    (absent : PROTO ∉ doc.map Prod.fst) (later : Mends (.obj doc) (.obj doc') b) :
    Mends (.obj doc) (.obj doc') (a.map (Piece.below PROTO) ++ b) where
  marked q hq := by
    rcases List.mem_append.mp hq with hq | hq
    · obtain ⟨p, _, rfl⟩ := List.mem_map.mp hq
      simp [Piece.below, walk, member, lookup_none.mpr absent]
    · exact later.marked q hq
  filled clear := by
    cases a with
    | nil => exact later.filled clear
    | cons p a =>
      exact absurd List.mem_cons_self (clear (p.below PROTO) (by simp))

/-- The copied keys: those of the value, without `__proto__`. -/
theorem cloneProps_keys {props ws : List (JSString × JSValue)} {out out' : SplitOutput}
    (h : cloneProps options cid path out props = some (ws, out')) :
    ws.map Prod.fst = (props.map Prod.fst).filter (· ≠ PROTO) := by
  induction props generalizing out ws with
  | nil =>
    cases h
    rfl
  | cons p ps ih =>
    obtain ⟨k, x⟩ := p
    rw [cloneProps, Option.bind_eq_bind, Option.bind_eq_some_iff] at h
    obtain ⟨⟨w, mid⟩, _, h⟩ := h
    simp only [Option.bind_eq_bind, Option.bind_eq_some_iff] at h
    obtain ⟨⟨ws', out₂⟩, hps, h⟩ := h
    cases h
    by_cases hk : k = PROTO <;> simp [hk, ih hps]

theorem cloneProps_cuts {props : List (JSString × JSValue)}
    (ih : ∀ p ∈ props, Split options cid p.2) (nodup : (props.map Prod.fst).Nodup)
    {out out' : SplitOutput} {ws : List (JSString × JSValue)}
    (h : cloneProps options cid path out props = some (ws, out')) :
    ∃ pieces, Cuts options cid path out out' pieces ∧
      pieces.map Piece.spot = spotsProps options path props ∧
      (∀ p ∈ pieces, p.place ≠ []) ∧
      ∀ done : List (JSString × Json), PROTO ∉ done.map Prod.fst →
        ((done ++ imageProps ws).map Prod.fst).Nodup →
        Mends (.obj (done ++ imageProps ws)) (.obj (done ++ imageProps (copyProps props))) pieces := by
  induction props generalizing out ws with
  | nil =>
    cases h
    exact ⟨[], .nil _, rfl, by simp, fun done _ _ => ⟨by simp, fun _ => rfl⟩⟩
  | cons p ps ihs =>
    obtain ⟨k, x⟩ := p
    have keys := cloneProps_keys h
    rw [cloneProps, Option.bind_eq_bind, Option.bind_eq_some_iff] at h
    obtain ⟨⟨w, mid⟩, hx, h⟩ := h
    simp only [Option.bind_eq_bind, Option.bind_eq_some_iff] at h
    obtain ⟨⟨ws', out₂⟩, hps, h⟩ := h
    cases h
    obtain ⟨a, cutsA, spotsA, restores⟩ := ih (k, x) List.mem_cons_self _ _ _ _ hx
    obtain ⟨b, cutsB, spotsB, places, mends⟩ := ihs (fun q hq => ih q (List.mem_cons_of_mem _ hq))
      (List.nodup_cons.mp nodup).2 hps
    refine ⟨a.map (Piece.below k) ++ b, (cutsA.below _).append cutsB, ?_, places_below places, ?_⟩
    · rw [List.map_append, spots_below, spotsA, spotsB, spotsProps]
    intro done noProto distinct
    rw [copyProps]
    by_cases hk : k = PROTO
    · subst hk
      rw [if_pos rfl] at distinct ⊢
      rw [if_pos rfl]
      have absent : PROTO ∉ (done ++ imageProps ws').map Prod.fst := by
        rw [List.map_append, List.mem_append, not_or]
        refine ⟨noProto, fun h => ?_⟩
        have := (imageProps_keys ws').subset h
        rw [cloneProps_keys hps] at this
        simp at this
      exact mends_proto absent (mends done noProto distinct)
    · rw [if_neg hk] at distinct ⊢
      rw [if_neg hk, imageProps, imageProps]
      cases hw : w.image with
      | none =>
        obtain ⟨copied, rfl⟩ := restores.none hw
        rw [imageProps, hw] at distinct
        rw [show x.copy.image = none from copied]
        exact mends done noProto distinct
      | some j =>
        rw [imageProps, hw] at distinct
        rw [hw] at restores
        have later : ∀ y, Mends (.obj (done ++ (k, y) :: imageProps ws'))
            (.obj (done ++ (k, y) :: imageProps (copyProps ps))) b := by
          intro y
          have := mends (done ++ [(k, y)]) (by simpa [noProto] using Ne.symm hk)
            (by simpa using distinct)
          simpa using this
        obtain ⟨j', hj', filled⟩ := restores.filled j rfl
        rw [show x.copy.image = some j' from hj']
        exact mends_member hk distinct (restores.marked j rfl) filled later

/-- **What a split does to a value.** -/
theorem cloneAndSplit_cuts {value : JSValue} (wf : value.Wf) : Split options cid value := by
  induction value with
  | str s =>
    intro path out w out' h
    simp only [cloneAndSplit] at h
    split at h
    · split at h
      · cases h
      · rename_i parts hp
        cases h
        refine ⟨[⟨[], cid out.refs.length, s, parts, splitStringByBytes_ne_nil hp⟩], ?_, ?_, ?_⟩
        · exact ⟨by simp [Piece.ref], by simp [Piece.packets], by simp, by simpa using hp⟩
        · rw [JSValue.spots, if_pos (by assumption)]
          rfl
        · refine Mends.restores ⟨?_, fun _ => rfl⟩
          intro p hp
          rw [List.mem_singleton.mp hp]
          simp [walk, Piece.mark, imageProps, JSValue.image]
    · rename_i whole
      cases h
      refine ⟨[], .nil _, ?_, Mends.restores ⟨by simp, fun _ => rfl⟩⟩
      rw [JSValue.spots, if_neg whole]
      rfl
  | arr items ih =>
    intro path out w out' h
    simp only [cloneAndSplit, Option.bind_eq_bind, Option.bind_eq_some_iff] at h
    obtain ⟨⟨ws, out₂⟩, hs, h⟩ := h
    cases h
    rw [JSValue.wf_arr] at wf
    obtain ⟨pieces, cuts, spots, _, mends⟩ := cloneItems_cuts (fun x hx => ih x hx (wf x hx)) hs
    exact ⟨pieces, cuts, spots, (mends [] rfl).restores⟩
  | obj props image ih =>
    intro path out w out' h
    simp only [cloneAndSplit, Option.bind_eq_bind, Option.bind_eq_some_iff] at h
    obtain ⟨⟨ws, out₂⟩, hs, h⟩ := h
    cases h
    rw [JSValue.wf_obj] at wf
    have distinct : ((imageProps ws).map Prod.fst).Nodup := by
      refine List.Nodup.sublist (imageProps_keys ws) ?_
      rw [cloneProps_keys hs]
      exact wf.1.filter _
    obtain ⟨pieces, cuts, spots, _, mends⟩ :=
      cloneProps_cuts (fun p hp => ih p hp (wf.2.1 p hp)) wf.1 hs
    exact ⟨pieces, cuts, spots, (mends [] (by simp) distinct).restores⟩
  | undefined =>
    intro path out w out' h
    cases h
    exact ⟨[], .nil _, rfl, ⟨fun _ => ⟨rfl, rfl⟩, by simp, by rintro j ⟨⟩⟩⟩
  | num n =>
    intro path out w out' h
    cases h
    cases n <;> exact ⟨[], .nil _, rfl, Mends.restores ⟨by simp, fun _ => rfl⟩⟩
  | _ =>
    intro path out w out' h
    cases h
    exact ⟨[], .nil _, rfl, Mends.restores ⟨by simp, fun _ => rfl⟩⟩

theorem cloneAndSplit_wf {value w : JSValue} {out out' : SplitOutput} (wf : value.Wf)
    (h : cloneAndSplit options cid path out value = some (w, out')) : w.Wf := by
  induction value generalizing path out w out' with
  | str s =>
    simp only [cloneAndSplit] at h
    split at h
    · split at h
      · cases h
      · cases h
        simp [marker, JSValue.wf_obj, JSValue.Wf]
    · cases h
      trivial
  | arr items ih =>
    simp only [cloneAndSplit, Option.bind_eq_bind, Option.bind_eq_some_iff] at h
    obtain ⟨⟨ws, out₂⟩, hs, h⟩ := h
    cases h
    rw [JSValue.wf_arr] at wf ⊢
    have all : ∀ (items : List JSValue) ws index out out',
        (∀ x ∈ items, ∀ path out w out', cloneAndSplit options cid path out x = some (w, out') →
          w.Wf) → cloneItems options cid path index out items = some (ws, out') →
        ∀ y ∈ ws, y.Wf := by
      intro items
      induction items with
      | nil =>
        rintro ws index out out' _ ⟨⟩
        simp
      | cons x xs ihs =>
        intro ws index out out' step h
        simp only [cloneItems, Option.bind_eq_bind, Option.bind_eq_some_iff] at h
        obtain ⟨⟨w, mid⟩, hx, ⟨ws', out₂⟩, hxs, h⟩ := h
        cases h
        intro y hy
        rcases List.mem_cons.mp hy with rfl | hy
        · exact step x List.mem_cons_self _ _ _ _ hx
        · exact ihs _ _ _ _ (fun z hz => step z (List.mem_cons_of_mem _ hz)) hxs y hy
    exact all items ws 0 out out₂ (fun x hx _ _ _ _ hc => ih x hx (wf x hx) hc) hs
  | obj props image ih =>
    simp only [cloneAndSplit, Option.bind_eq_bind, Option.bind_eq_some_iff] at h
    obtain ⟨⟨ws, out₂⟩, hs, h⟩ := h
    cases h
    rw [JSValue.wf_obj] at wf ⊢
    have all : ∀ (props ws : List (JSString × JSValue)) out out',
        (∀ p ∈ props, ∀ path out w out', cloneAndSplit options cid path out p.2 = some (w, out') →
          w.Wf) → cloneProps options cid path out props = some (ws, out') →
        ∀ p ∈ ws, p.2.Wf := by
      intro props
      induction props with
      | nil =>
        rintro ws out out' _ ⟨⟩
        simp
      | cons p ps ihs =>
        obtain ⟨k, x⟩ := p
        intro ws out out' step h
        simp only [cloneProps, Option.bind_eq_bind, Option.bind_eq_some_iff] at h
        obtain ⟨⟨w, mid⟩, hx, ⟨ws', out₂⟩, hps, h⟩ := h
        cases h
        have rest := ihs _ _ _ (fun q hq => step q (List.mem_cons_of_mem _ hq)) hps
        intro q hq
        split at hq
        · exact rest q hq
        · rcases List.mem_cons.mp hq with rfl | hq
          · exact step (k, x) List.mem_cons_self _ _ _ _ hx
          · exact rest q hq
    refine ⟨?_, all props ws out out₂ (fun p hp _ _ _ _ hc => ih p hp (wf.2.1 p hp) hc) hs, by simp⟩
    rw [cloneProps_keys hs]
    exact wf.1.filter _
  | _ =>
    cases h
    trivial

/-! ## The packets of a message -/

/-- The chunk of one part of a piece. -/
def Piece.chunk (tid : JSString) (p : Piece) (index : Nat) (h : index < p.parts.length) :
    JSONChunkPacket :=
  ⟨tid, p.cid, index, p.parts.length, p.parts[index], hashString p.parts[index], h⟩

/-- `split` is made of `pieces`, and stands for `doc`. -/
structure MadeOf (cid : Nat → JSString) (split : JSONSplitResult) (pieces : List Piece)
    (doc : Json) : Prop where
  tid : split.manifest.tid = split.tid
  refs : split.manifest.refs = pieces.map (Piece.ref [])
  chunks : ∀ c, c ∈ split.chunks ↔ ∃ p ∈ pieces, ∃ index h, c = p.chunk split.tid index h
  nodup : (pieces.map Piece.cid).Nodup → split.chunks.Nodup
  cids : pieces.map Piece.cid = (List.range pieces.length).map cid
  values : ∀ p ∈ pieces, p.parts.flatten = p.value
  places : ∀ p ∈ pieces, p.place ≠ []
  wf : split.manifest.root.Wf
  solid : (∃ items, doc = .arr items) ∨ ∃ props, doc = .obj props
  mends : Mends split.manifest.root doc pieces

/-- An object or an array, which is what a transport sends. -/
def JSValue.isContainer : JSValue → Bool
  | .arr _ => true
  | .obj _ _ => true
  | _ => false

theorem mem_packets {p : Piece} {tid : JSString} {c : JSONChunkPacket} :
    (∃ chunk ∈ p.packets, c = { chunk with tid := tid }) ↔ ∃ index h, c = p.chunk tid index h := by
  simp only [Piece.packets, chunkPackets, List.mem_mapFinIdx]
  constructor
  · rintro ⟨chunk, ⟨index, h, rfl⟩, rfl⟩
    exact ⟨index, h, rfl⟩
  · rintro ⟨index, h, rfl⟩
    exact ⟨_, ⟨index, h, rfl⟩, rfl⟩

/-- Chunks differ in their chunk id or their index. -/
theorem packets_nodup (tid : JSString) {pieces : List Piece}
    (distinct : (pieces.map Piece.cid).Nodup) :
    ((pieces.flatMap Piece.packets).map fun chunk => { chunk with tid := tid }).Nodup := by
  have keys : ((pieces.flatMap Piece.packets).map fun chunk => (chunk.cid, chunk.index)).Nodup := by
    induction pieces with
    | nil => exact .nil
    | cons p pieces ih =>
      rw [List.map_cons, List.nodup_cons] at distinct
      rw [List.flatMap_cons, List.map_append, List.nodup_append]
      have own : p.packets.map (fun chunk => (chunk.cid, chunk.index)) =
          (List.range p.parts.length).map fun i => (p.cid, i) := by
        apply List.ext_getElem
        · simp [Piece.packets, chunkPackets]
        · intro i h₁ h₂
          simp [Piece.packets, chunkPackets]
      refine ⟨?_, ih distinct.2, ?_⟩
      · rw [own]
        exact List.nodup_range.map fun a b h => (Prod.mk.inj h).2
      · rintro a ha b hb rfl
        rw [own] at ha
        obtain ⟨i, _, rfl⟩ := List.mem_map.mp ha
        obtain ⟨chunk, hchunk, hkey⟩ := List.mem_map.mp hb
        obtain ⟨q, hq, hcq⟩ := List.mem_flatMap.mp hchunk
        obtain ⟨j, hj, eq⟩ := List.mem_mapFinIdx.mp hcq
        have same : q.cid = p.cid := by
          rw [← (Prod.mk.inj hkey).1, ← eq]
        exact distinct.1 (same ▸ List.mem_map_of_mem hq)
  have again : ((pieces.flatMap Piece.packets).map fun chunk => { chunk with tid := tid }).map
      (fun chunk => (chunk.cid, chunk.index)) =
      (pieces.flatMap Piece.packets).map fun chunk => (chunk.cid, chunk.index) := by
    rw [List.map_map]
    rfl
  exact List.Nodup.of_map _ (again ▸ keys)

/-- **The pieces of a message.** -/
theorem splitJSON_madeOf {data : JSValue} {ids : Ids} {split : JSONSplitResult} (wf : data.Wf)
    (container : data.isContainer = true) (h : splitJSON data options ids = some split) :
    ∃ pieces doc, data.copy.image = some doc ∧ MadeOf ids.cid split pieces doc ∧
      pieces.map Piece.spot = data.spots options [] ∧
      ∀ p ∈ pieces, splitStringByBytes p.value options.chunkBytes = some p.parts := by
  rw [splitJSON, Option.bind_eq_bind, Option.bind_eq_some_iff] at h
  obtain ⟨⟨root, out⟩, hc, h⟩ := h
  cases h
  have rootWf := cloneAndSplit_wf wf hc
  have made : ∀ pieces doc, Cuts options ids.cid [] ⟨[], []⟩ out pieces →
      (∀ p ∈ pieces, p.place ≠ []) → ((∃ items, doc = .arr items) ∨ ∃ props, doc = .obj props) →
      Mends (root.image.getD .null) doc pieces →
      MadeOf ids.cid ⟨ids.tid, ⟨ids.tid, root.image.getD .null, out.refs⟩,
        out.chunks.map fun chunk => { chunk with tid := ids.tid }⟩ pieces doc := by
    intro pieces doc cuts places solid mends
    refine ⟨rfl, by simpa using cuts.refs, fun c => ?_, fun distinct => ?_, ?_, fun p hp => ?_,
      places, ?_, solid, mends⟩
    · rw [cuts.chunks, List.nil_append]
      simp only [List.mem_map, List.mem_flatMap]
      constructor
      · rintro ⟨chunk, ⟨p, hp, hchunk⟩, rfl⟩
        exact ⟨p, hp, mem_packets.mp ⟨chunk, hchunk, rfl⟩⟩
      · rintro ⟨p, hp, hcp⟩
        obtain ⟨chunk, hchunk, rfl⟩ := mem_packets.mpr hcp
        exact ⟨chunk, ⟨p, hp, hchunk⟩, rfl⟩
    · rw [cuts.chunks, List.nil_append]
      exact packets_nodup ids.tid distinct
    · rw [cuts.cids, List.range_eq_range']
      rfl
    · exact splitStringByBytes_flatten (cuts.parts p hp)
    · cases hi : root.image with
      | none => simp
      | some j => exact JSValue.image_wf rootWf j hi
  cases data with
  | arr items =>
    simp only [cloneAndSplit, Option.bind_eq_bind, Option.bind_eq_some_iff] at hc
    obtain ⟨⟨ws, out₂⟩, hs, hc⟩ := hc
    cases hc
    rw [JSValue.wf_arr] at wf
    obtain ⟨pieces, cuts, spots, places, mends⟩ :=
      cloneItems_cuts (fun x hx => cloneAndSplit_cuts (wf x hx)) hs
    exact ⟨pieces, _, rfl, made _ _ cuts places (.inl ⟨_, rfl⟩) (mends [] rfl), spots,
      cuts.parts⟩
  | obj props image =>
    simp only [cloneAndSplit, Option.bind_eq_bind, Option.bind_eq_some_iff] at hc
    obtain ⟨⟨ws, out₂⟩, hs, hc⟩ := hc
    cases hc
    rw [JSValue.wf_obj] at wf
    have distinct : ((imageProps ws).map Prod.fst).Nodup := by
      refine List.Nodup.sublist (imageProps_keys ws) ?_
      rw [cloneProps_keys hs]
      exact wf.1.filter _
    obtain ⟨pieces, cuts, spots, places, mends⟩ :=
      cloneProps_cuts (fun p hp => cloneAndSplit_cuts (wf.2.1 p hp)) wf.1 hs
    exact ⟨pieces, _, rfl, made _ _ cuts places (.inr ⟨_, rfl⟩)
      (mends [] (by simp) distinct), spots, cuts.parts⟩
  | _ => cases container

/-! ## Documents without `__proto__` -/

mutual

/-- No object has an own key `__proto__`. -/
def plain : Json → Bool
  | .arr items => plainItems items
  | .obj props => plainProps props
  | _ => true

def plainItems : List Json → Bool
  | [] => true
  | x :: xs => plain x && plainItems xs

def plainProps : List (JSString × Json) → Bool
  | [] => true
  | (k, x) :: xs => k ≠ PROTO && plain x && plainProps xs

end

theorem plain_arr {items : List Json} : plain (.arr items) = true ↔ ∀ x ∈ items, plain x = true := by
  rw [plain]
  induction items with
  | nil => simp [plainItems]
  | cons x xs ih => simp [plainItems, ih]

theorem plain_obj {props : List (JSString × Json)} :
    plain (.obj props) = true ↔ ∀ p ∈ props, p.1 ≠ PROTO ∧ plain p.2 = true := by
  rw [plain]
  induction props with
  | nil => simp [plainProps]
  | cons p ps ih =>
    obtain ⟨k, x⟩ := p
    simp [plainProps, ih, and_assoc]

theorem copyItems_eq (items : List JSValue) : copyItems items = items.map JSValue.copy := by
  induction items with
  | nil => rfl
  | cons x xs ih => simp [copyItems, ih]

theorem copy_ofJson {j : Json} (h : plain j = true) : (JSValue.ofJson j).copy = .ofJson j := by
  induction j with
  | arr items ih =>
    rw [plain_arr] at h
    simp only [JSValue.ofJson, JSValue.copy, ofJsonItems_eq, copyItems_eq, List.map_map,
      JSValue.arr.injEq]
    exact List.map_congr_left fun x hx => ih x hx (h x hx)
  | obj props ih =>
    rw [plain_obj] at h
    have all : ∀ ps : List (JSString × Json), (∀ p ∈ ps, p ∈ props) →
        copyProps (ofJsonProps ps) = ofJsonProps ps := by
      intro ps
      induction ps with
      | nil => exact fun _ => rfl
      | cons p ps ihs =>
        intro sub
        obtain ⟨k, x⟩ := p
        have hp := sub _ List.mem_cons_self
        rw [ofJsonProps, copyProps, if_neg (h _ hp).1, ih _ hp (h _ hp).2,
          ihs fun q hq => sub q (List.mem_cons_of_mem _ hq)]
    rw [JSValue.ofJson, JSValue.copy, all props fun p hp => hp]
  | _ => rfl

theorem spots_ofJson {j : Json} (h : plain j = true) (options : SplitOptions) (path : JSString) :
    ∀ q ∈ (JSValue.ofJson j).spots options path, PROTO ∉ q.1 := by
  induction j generalizing path with
  | str s =>
    intro q hq
    simp only [JSValue.ofJson, JSValue.spots] at hq
    split at hq
    · rw [List.mem_singleton.mp hq]
      simp
    · cases hq
  | arr items ih =>
    rw [plain_arr] at h
    intro q hq
    rw [JSValue.ofJson, JSValue.spots, ofJsonItems_eq] at hq
    obtain ⟨i, _, found, inner, mem, rfl⟩ := mem_spotsItems hq
    obtain ⟨x, hx, rfl⟩ := List.mem_map.mp (List.mem_of_getElem? found)
    simpa [Spot.below, Ne.symm (natText_ne_proto _)] using ih x hx (h x hx) _ inner mem
  | obj props ih =>
    rw [plain_obj] at h
    intro q hq
    rw [JSValue.ofJson, JSValue.spots, ofJsonProps_eq] at hq
    obtain ⟨_, _, found, inner, mem, rfl⟩ := mem_spotsProps hq
    obtain ⟨p, hp, same⟩ := List.mem_map.mp found
    cases same
    simpa [Spot.below, Ne.symm (h p hp).1] using ih p hp (h p hp).2 _ inner mem
  | _ => intro q hq; cases hq

end LemonModel
