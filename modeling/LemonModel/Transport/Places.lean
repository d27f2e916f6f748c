import LemonModel.Transport.Pointer

/-!
# Filling places of a document

`put` writes at a place that is there, and `fill` writes a list of places in
order. The receiver's `setByJSONPointer` is `put` wherever `put` succeeds.
-/

namespace LemonModel

open Text

def put : List JSString → Json → Json → Option Json
  | [], v, _ => some v
  | k :: keys, v, cursor =>
    (member cursor k).bind fun child => (put keys v child).map (putMember cursor k)

def fill : List (List JSString × Json) → Json → Option Json
  | [], root => some root
  | (keys, v) :: cuts, root => (put keys v root).bind (fill cuts)

theorem fill_append (a b : List (List JSString × Json)) (root : Json) :
    fill (a ++ b) root = (fill a root).bind (fill b) := by
  induction a generalizing root with
  | nil => rfl
  | cons cut a ih =>
    obtain ⟨keys, v⟩ := cut
    rw [List.cons_append, fill, fill, Option.bind_assoc]
    exact congrArg _ (funext ih)

/-- Where `put` succeeds the source's loop does the same. -/
theorem setAt_of_put {keys : List JSString} {v root root' : Json} (ne : keys ≠ [])
    (h : put keys v root = some root') : setAt root keys v = some root' := by
  induction keys generalizing root root' with
  | nil => exact absurd rfl ne
  | cons k keys ih =>
    obtain ⟨child, hchild, h⟩ := Option.bind_eq_some_iff.mp h
    obtain ⟨child', hput, rfl⟩ := Option.map_eq_some_iff.mp h
    have container := member_isContainer hchild
    cases keys with
    | nil =>
      obtain rfl : v = child' := Option.some.inj hput
      rw [setAt, if_pos container]
    | cons k' keys =>
      have rest := ih (by simp) hput
      simp only [setAt, if_pos container, hchild, Option.bind_eq_bind, Option.bind_some]
      rw [rest, Option.bind_some]

theorem setByJSONPointer_of_put {keys : List JSString} {v root root' : Json} (ne : keys ≠ [])
    (h : put keys v root = some root') : setByJSONPointer root (pathText keys) v = .ok root' := by
  rw [setByJSONPointer, segments_pathText, if_neg ne, setAt_of_put ne h]

/-! ## Below an item or a member -/

/-- The cuts of a child, as cuts of its parent. -/
def under (k : JSString) (cuts : List (List JSString × Json)) : List (List JSString × Json) :=
  cuts.map fun cut => (k :: cut.1, cut.2)

theorem member_item {items : List Json} {i : Nat} {x : Json} (h : items[i]? = some x) :
    member (.arr items) (natText i) = some x := by
  simp [member, h]

theorem putMember_item (items : List Json) (i : Nat) (x : Json) :
    putMember (.arr items) (natText i) x = .arr (items.set i x) := by
  simp [putMember]

theorem fill_item {cuts : List (List JSString × Json)} {items : List Json} {i : Nat} {x : Json}
    (h : items[i]? = some x) :
    fill (under (natText i) cuts) (.arr items) =
      (fill cuts x).map fun x' => .arr (items.set i x') := by
  induction cuts generalizing items x with
  | nil =>
    obtain ⟨hlt, rfl⟩ := List.getElem?_eq_some_iff.mp h
    simp [under, fill]
  | cons cut cuts ih =>
    obtain ⟨keys, v⟩ := cut
    have hlt : i < items.length := (List.getElem?_eq_some_iff.mp h).1
    rw [under, List.map_cons, fill, ← under, put, member_item h, Option.bind_some, fill]
    cases hput : put keys v x with
    | none => rfl
    | some x' =>
      have placed : (items.set i x')[i]? = some x' := by simp [hlt]
      rw [Option.map_some, Option.bind_some, Option.bind_some, putMember_item, ih placed]
      simp

theorem fill_member {cuts : List (List JSString × Json)} {a b : List (JSString × Json)}
    {k : JSString} {x : Json} (h : ((a ++ (k, x) :: b).map Prod.fst).Nodup) :
    fill (under k cuts) (.obj (a ++ (k, x) :: b)) =
      (fill cuts x).map fun x' => .obj (a ++ (k, x') :: b) := by
  induction cuts generalizing x with
  | nil => simp [under, fill]
  | cons cut cuts ih =>
    obtain ⟨keys, v⟩ := cut
    have first : k ∉ a.map Prod.fst := by
      rw [List.map_append, List.map_cons, List.nodup_append] at h
      exact fun hk => h.2.2 k hk k (by simp) rfl
    have found : member (.obj (a ++ (k, x) :: b)) k = some x := lookup_append_cons x first
    rw [under, List.map_cons, fill, ← under, put, found, Option.bind_some, fill]
    cases hput : put keys v x with
    | none => rfl
    | some x' =>
      have same : ((a ++ (k, x') :: b).map Prod.fst).Nodup := by simpa using h
      rw [Option.map_some, Option.bind_some, Option.bind_some]
      simp only [putMember, setProp_append_cons x x' h]
      exact ih same

end LemonModel
