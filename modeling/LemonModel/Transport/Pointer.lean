import LemonModel.Transport.Packet

/-!
# JSON pointers

Paths into a document as the source builds and follows them, and the lemmas
that make a path name one place:

* `segments_pathText`: splitting a built path recovers its keys;
* `member_putMember`: what was put at a member is found there.
-/

namespace LemonModel

open Text

/-! ## Escaping -/

def escapeJSONPointer (value : JSString) : JSString :=
  (value.flatMap fun u => if u = unit '~' then [unit '~', unit '0'] else [u]).flatMap
    fun u => if u = unit '/' then [unit '~', unit '1'] else [u]

/-- `value.replace(/ab/g, c)`. -/
def replacePair (a b c : UInt16) : JSString → JSString
  | [] => []
  | [u] => [u]
  | u :: v :: rest =>
    if u = a ∧ v = b then c :: replacePair a b c rest else u :: replacePair a b c (v :: rest)

def unescapeJSONPointer (value : JSString) : JSString :=
  replacePair (unit '~') (unit '0') (unit '~') (replacePair (unit '~') (unit '1') (unit '/') value)

/-- What one unit of a key becomes in a path. -/
def escapeUnit (u : UInt16) : JSString :=
  if u = unit '~' then [unit '~', unit '0'] else if u = unit '/' then [unit '~', unit '1'] else [u]

theorem escape_eq (value : JSString) : escapeJSONPointer value = value.flatMap escapeUnit := by
  rw [escapeJSONPointer, List.flatMap_assoc]
  congr 1
  funext u
  by_cases h : u = unit '~'
  · subst h; decide
  · simp [escapeUnit, h]

theorem slash_not_mem_escape (value : JSString) : unit '/' ∉ escapeJSONPointer value := by
  rw [escape_eq, List.mem_flatMap]
  rintro ⟨u, _, hu⟩
  unfold escapeUnit at hu
  split at hu
  · revert hu; decide
  · split at hu
    · revert hu; decide
    · rename_i h
      exact h (List.mem_singleton.mp hu).symm

theorem replacePair_ne {a b c u : UInt16} (rest : JSString) (h : u ≠ a) :
    replacePair a b c (u :: rest) = u :: replacePair a b c rest := by
  cases rest with
  | nil => rfl
  | cons v rest => rw [replacePair, if_neg fun hc => h hc.1]

theorem replacePair_pair (a b c : UInt16) (rest : JSString) :
    replacePair a b c (a :: b :: rest) = c :: replacePair a b c rest := by
  rw [replacePair, if_pos ⟨rfl, rfl⟩]

theorem replacePair_second {a b c v : UInt16} (rest : JSString) (hb : v ≠ b) (ha : v ≠ a) :
    replacePair a b c (a :: v :: rest) = a :: v :: replacePair a b c rest := by
  rw [replacePair, if_neg fun hc => hb hc.2, replacePair_ne rest ha]

@[simp] theorem unescape_escape (value : JSString) :
    unescapeJSONPointer (escapeJSONPointer value) = value := by
  have first : replacePair (unit '~') (unit '1') (unit '/') (escapeJSONPointer value) =
      value.flatMap fun u => if u = unit '~' then [unit '~', unit '0'] else [u] := by
    rw [escape_eq]
    induction value with
    | nil => rfl
    | cons u rest ih =>
      rw [List.flatMap_cons, List.flatMap_cons, ← ih, escapeUnit]
      split
      · exact replacePair_second _ (by decide) (by decide)
      · split
        · subst u; exact replacePair_pair _ _ _ _
        · exact replacePair_ne _ (by assumption)
  rw [unescapeJSONPointer, first]
  clear first
  induction value with
  | nil => rfl
  | cons u rest ih =>
    rw [List.flatMap_cons]
    split
    · subst u
      exact (replacePair_pair _ _ _ _).trans (congrArg _ ih)
    · exact (replacePair_ne _ (by assumption)).trans (congrArg _ ih)

/-! ## Paths -/

/-- The path of a list of keys, as `cloneAndSplit` builds it. -/
def pathText (keys : List JSString) : JSString :=
  keys.flatMap fun k => unit '/' :: escapeJSONPointer k

/-- `path.split('/').slice(1)`. -/
def rawSegments (path : JSString) : List JSString := (path.splitOn (unit '/')).tail

/-- The keys of a path. -/
def segments (path : JSString) : List JSString := (rawSegments path).map unescapeJSONPointer

@[simp] theorem pathText_nil : pathText [] = [] := rfl

theorem pathText_cons (k : JSString) (keys : List JSString) :
    pathText (k :: keys) = unit '/' :: (escapeJSONPointer k ++ pathText keys) := rfl

theorem splitOn_pathText (s : JSString) (hs : unit '/' ∉ s) (keys : List JSString) :
    (s ++ pathText keys).splitOn (unit '/') = s :: keys.map escapeJSONPointer := by
  induction keys generalizing s with
  | nil => simpa using List.splitOn_eq_singleton hs
  | cons k keys ih =>
    rw [pathText_cons, List.splitOn_append_cons_self_of_not_mem hs, ih _ (slash_not_mem_escape k),
      List.map_cons]

@[simp] theorem segments_pathText (keys : List JSString) : segments (pathText keys) = keys := by
  have h := splitOn_pathText [] (by simp) keys
  rw [List.nil_append] at h
  rw [segments, rawSegments, h, List.tail_cons, List.map_map]
  exact (List.map_congr_left fun k _ => unescape_escape k).trans (List.map_id keys)

/-! ## Reading and writing a place -/

/-- The array index a key is, if it is written as one. -/
def arrayIndex (k : JSString) : Option Nat :=
  if natText (digitsValue k) = k then some (digitsValue k) else none

@[simp] theorem arrayIndex_natText (n : Nat) : arrayIndex (natText n) = some n := by
  simp [arrayIndex]

/-- `cursor[k]` for an own element or property. What an object or array
inherits, and an array's `length`, is neither a marker nor a container of one,
so it counts as `undefined`. -/
def member (cursor : Json) (k : JSString) : Option Json :=
  match cursor with
  | .arr items => (arrayIndex k).bind fun i => items[i]?
  | .obj props => props.lookup k
  | _ => none

/-- `cursor[k] = v` where `cursor` is an object or an array, and has `k`. -/
def putMember (cursor : Json) (k : JSString) (v : Json) : Json :=
  match cursor with
  | .arr items =>
    match arrayIndex k with
    | some i => .arr (items.set i v)
    | none => .arr items
  | .obj props => .obj (setProp props k v)
  | _ => cursor

def isContainer : Json → Bool
  | .arr _ => true
  | .obj _ => true
  | _ => false

/-- The place a list of keys leads to. -/
def walk (cursor : Json) : List JSString → Option Json
  | [] => some cursor
  | k :: keys => (member cursor k).bind fun x => walk x keys

def getByJSONPointer (root : Json) (path : JSString) : Option Json := walk root (segments path)

/-- The loop of `setByJSONPointer`; `none` where it throws. -/
def setAt (cursor : Json) : List JSString → Json → Option Json
  | [], _ => none
  | [last], value => if isContainer cursor then some (putMember cursor last value) else none
  | k :: keys, value =>
    if isContainer cursor then do
      let child ← member cursor k
      let child ← setAt child keys value
      some (putMember cursor k child)
    else none

/-- `setByJSONPointer`, with the message it throws. -/
def setByJSONPointer (root : Json) (path : JSString) (value : Json) : Except JSString Json :=
  if segments path = [] then .error (lit "@path is required - json.ref.path")
  else
    match setAt root (segments path) value with
    | some root => .ok root
    | none => .error (lit "@path[" ++ path ++ lit "] is invalid - json.ref.path")

theorem member_isContainer {j x : Json} {k : JSString} (h : member j k = some x) :
    isContainer j = true := by
  cases j <;> simp [member, isContainer] at h ⊢

theorem lookup_eq_some {props : List (JSString × Json)} {k : JSString} {x : Json}
    (h : props.lookup k = some x) : (k, x) ∈ props := by
  induction props with
  | nil => cases h
  | cons p ps ih =>
    obtain ⟨k', x'⟩ := p
    by_cases hk : k = k'
    · subst hk
      obtain rfl : x' = x := by simpa using h
      exact List.mem_cons_self
    · rw [List.lookup_cons, beq_false_of_ne hk] at h
      exact List.mem_cons_of_mem _ (ih h)

theorem lookup_none {props : List (JSString × Json)} {k : JSString} :
    props.lookup k = none ↔ k ∉ props.map Prod.fst := by
  induction props with
  | nil => simp
  | cons p ps ih =>
    obtain ⟨k', x'⟩ := p
    by_cases hk : k = k'
    · simp [hk]
    · rw [List.lookup_cons, beq_false_of_ne hk]
      simp [ih, hk]

theorem lookup_cons_if (props : List (JSString × Json)) (k k' : JSString) (v : Json) :
    ((k, v) :: props).lookup k' = if k' = k then some v else props.lookup k' :=
  prop?_cons k' k v props

theorem lookup_map_ne {props : List (JSString × Json)} {k k' : JSString} (v : Json)
    (other : k' ≠ k) :
    (props.map fun p => if p.1 = k then (k, v) else p).lookup k' = props.lookup k' := by
  induction props with
  | nil => rfl
  | cons p props ih =>
    obtain ⟨key, x⟩ := p
    by_cases own : key = k
    · rw [List.map_cons, if_pos own, own, lookup_cons_if, lookup_cons_if, if_neg other,
        if_neg other, ih]
    · rw [List.map_cons, if_neg own, lookup_cons_if, lookup_cons_if, ih]

theorem lookup_map_self {props : List (JSString × Json)} {k : JSString} (v : Json)
    (there : k ∈ props.map Prod.fst) :
    (props.map fun p => if p.1 = k then (k, v) else p).lookup k = some v := by
  induction props with
  | nil => cases there
  | cons p props ih =>
    obtain ⟨key, x⟩ := p
    by_cases own : key = k
    · rw [List.map_cons, if_pos own, lookup_cons_if, if_pos rfl]
    · have later : k ∈ props.map Prod.fst := (List.mem_cons.mp there).resolve_left (Ne.symm own)
      rw [List.map_cons, if_neg own, lookup_cons_if, if_neg (Ne.symm own), ih later]

theorem lookup_setProp (props : List (JSString × Json)) (k k' : JSString) (v : Json) :
    (setProp props k v).lookup k' = if k' = k then some v else props.lookup k' := by
  unfold setProp
  split
  · rename_i there
    split
    · rename_i same
      rw [same, lookup_map_self v there]
    · rename_i other
      exact lookup_map_ne v other
  · rename_i fresh
    rw [List.lookup_append, lookup_cons_if, List.lookup_nil]
    split
    · rename_i same
      rw [same, lookup_none.mpr fresh, Option.none_or]
    · rw [Option.or_none]

theorem lookup_append_cons {a b : List (JSString × Json)} {k : JSString} (x : Json)
    (h : k ∉ a.map Prod.fst) : (a ++ (k, x) :: b).lookup k = some x := by
  induction a with
  | nil => simp
  | cons p ps ih =>
    obtain ⟨k', x'⟩ := p
    simp only [List.map_cons, List.mem_cons, not_or] at h
    rw [List.cons_append, List.lookup_cons, beq_false_of_ne h.1]
    exact ih h.2

theorem lookup_of_mem {props : List (JSString × Json)} {k : JSString} {x : Json}
    (distinct : (props.map Prod.fst).Nodup) (h : (k, x) ∈ props) : props.lookup k = some x := by
  obtain ⟨a, b, rfl⟩ := List.append_of_mem h
  rw [List.map_append, List.map_cons, List.nodup_append] at distinct
  exact lookup_append_cons x fun mem => distinct.2.2 k mem k List.mem_cons_self rfl

/-- Writing at a place among distinct keys changes that member alone. -/
theorem setProp_append_cons {a b : List (JSString × Json)} {k : JSString} (x y : Json)
    (h : ((a ++ (k, x) :: b).map Prod.fst).Nodup) :
    setProp (a ++ (k, x) :: b) k y = a ++ (k, y) :: b := by
  rw [List.map_append, List.map_cons, List.nodup_append] at h
  have ha : ∀ p ∈ a, p.1 ≠ k := fun p hp he =>
    h.2.2 p.1 (List.mem_map.mpr ⟨p, hp, rfl⟩) k (by simp) he
  have hb : ∀ p ∈ b, p.1 ≠ k := fun p hp he =>
    (List.nodup_cons.mp h.2.1).1 (List.mem_map.mpr ⟨p, hp, he⟩)
  have same : ∀ l : List (JSString × Json), (∀ p ∈ l, p.1 ≠ k) →
      (l.map fun p => if p.1 = k then (k, y) else p) = l := by
    intro l hl
    exact (List.map_congr_left fun p hp => if_neg (hl p hp)).trans (List.map_id l)
  rw [setProp, if_pos (by simp), List.map_append, List.map_cons, same a ha, same b hb]
  simp

/-- `putMember` at an existing member: reading it back. -/
theorem member_putMember {j x : Json} {k : JSString} (v : Json) (h : member j k = some x) :
    member (putMember j k v) k = some v := by
  cases j with
  | arr items =>
    obtain ⟨i, hi, hx⟩ := Option.bind_eq_some_iff.mp h
    have hlt : i < items.length := (List.getElem?_eq_some_iff.mp hx).1
    simp [member, putMember, hi, hlt]
  | obj props =>
    rw [putMember, member, lookup_setProp, if_pos rfl]
  | _ => cases h

end LemonModel
