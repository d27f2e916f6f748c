import LemonModel.Text.Parse

/-!
# Message values

The values a caller hands to a transport, as far as `JSON.stringify` can tell
them apart, and the document `JSON.parse(JSON.stringify(value))` rebuilds.
-/

namespace LemonModel

open Text

/-- A value `JSON.stringify` accepts. `undefined` also stands for functions,
symbols and array holes. An object lists its own enumerable string keys;
`image` is the document `JSON.stringify` prints in their place when the object
inherits a `toJSON` method (a `Date`, a class instance) or is a boxed
primitive. -/
inductive JSValue where
  | undefined
  | null
  | bool (b : Bool)
  | num (n : Option Decimal)
  | str (s : JSString)
  | arr (items : List JSValue)
  | obj (props : List (JSString × JSValue)) (image : Option Json)
  deriving Inhabited

@[elab_as_elim, induction_eliminator]
theorem JSValue.induction {P : JSValue → Prop} (undefined : P .undefined) (null : P .null)
    (bool : ∀ b, P (.bool b)) (num : ∀ n, P (.num n)) (str : ∀ s, P (.str s))
    (arr : ∀ items, (∀ x ∈ items, P x) → P (.arr items))
    (obj : ∀ props image, (∀ p ∈ props, P p.2) → P (.obj props image)) (v : JSValue) : P v := by
  refine @JSValue.rec P (fun items => ∀ x ∈ items, P x) (fun props => ∀ p ∈ props, P p.2)
    (fun p => P p.2) undefined null bool num str arr (fun props image h => obj props image h)
    ?_ ?_ ?_ ?_ ?_ v
  · simp
  · intro x xs hx hxs; simpa using ⟨hx, hxs⟩
  · simp
  · intro p ps hp hps; simpa using ⟨hp, fun a b hab => hps (a, b) hab⟩
  · intro k x hx; exact hx

mutual

/-- The document a value serialises to; `none` where `JSON.stringify` omits
it. -/
def JSValue.image : JSValue → Option Json
  | .undefined => none
  | .null => some .null
  | .bool b => some (.bool b)
  | .num (some n) => some (.num n)
  | .num none => some .null
  | .str s => some (.str s)
  | .arr items => some (.arr (imageItems items))
  | .obj _ (some j) => some j
  | .obj props none => some (.obj (imageProps props))

def imageItems : List JSValue → List Json
  | [] => []
  | x :: xs => x.image.getD .null :: imageItems xs

def imageProps : List (JSString × JSValue) → List (JSString × Json)
  | [] => []
  | (k, x) :: xs =>
    match x.image with
    | some j => (k, j) :: imageProps xs
    | none => imageProps xs

end

theorem imageItems_eq (items : List JSValue) :
    imageItems items = items.map fun x => x.image.getD .null := by
  induction items with
  | nil => rfl
  | cons x xs ih => simp [imageItems, ih]

theorem imageProps_eq (props : List (JSString × JSValue)) :
    imageProps props = props.filterMap fun p => p.2.image.map (p.1, ·) := by
  induction props with
  | nil => rfl
  | cons p ps ih =>
    obtain ⟨k, x⟩ := p
    cases h : x.image <;> simp [imageProps, h, ih]

mutual

/-- No object repeats a key, and every `image` is a well-formed document. -/
def JSValue.Wf : JSValue → Prop
  | .arr items => ValueItemsWf items
  | .obj props image =>
    (props.map Prod.fst).Nodup ∧ ValuePropsWf props ∧ ∀ j, image = some j → j.Wf
  | _ => True

def ValueItemsWf : List JSValue → Prop
  | [] => True
  | x :: xs => x.Wf ∧ ValueItemsWf xs

def ValuePropsWf : List (JSString × JSValue) → Prop
  | [] => True
  | (_, x) :: xs => x.Wf ∧ ValuePropsWf xs

end

theorem JSValue.wf_arr {items : List JSValue} : (JSValue.arr items).Wf ↔ ∀ x ∈ items, x.Wf := by
  rw [JSValue.Wf]
  induction items with
  | nil => simp [ValueItemsWf]
  | cons x xs ih => simp [ValueItemsWf, ih]

theorem JSValue.wf_obj {props : List (JSString × JSValue)} {image : Option Json} :
    (JSValue.obj props image).Wf ↔
      (props.map Prod.fst).Nodup ∧ (∀ p ∈ props, p.2.Wf) ∧ ∀ j, image = some j → j.Wf := by
  have key : ∀ ps, ValuePropsWf ps ↔ ∀ p ∈ ps, p.2.Wf := by
    intro ps
    induction ps with
    | nil => simp [ValuePropsWf]
    | cons p ps ih =>
      obtain ⟨k, x⟩ := p
      simp [ValuePropsWf, ih]
  rw [JSValue.Wf, key]

theorem mem_imageProps {props : List (JSString × JSValue)} {p : JSString × Json}
    (h : p ∈ imageProps props) : ∃ x, (p.1, x) ∈ props ∧ x.image = some p.2 := by
  rw [imageProps_eq, List.mem_filterMap] at h
  obtain ⟨⟨k, x⟩, hx, h⟩ := h
  obtain ⟨j, hj, rfl⟩ := Option.map_eq_some_iff.mp h
  exact ⟨x, hx, hj⟩

/-- Leaving members out keeps the others' keys in order. -/
theorem imageProps_keys (props : List (JSString × JSValue)) :
    ((imageProps props).map Prod.fst).Sublist (props.map Prod.fst) := by
  induction props with
  | nil => exact .slnil
  | cons p ps ih =>
    obtain ⟨k, x⟩ := p
    cases h : x.image with
    | none => simpa [imageProps, h] using ih.cons k
    | some j => simpa [imageProps, h] using ih.cons_cons k

theorem JSValue.image_wf {v : JSValue} (h : v.Wf) : ∀ j, v.image = some j → j.Wf := by
  induction v with
  | undefined => simp [JSValue.image]
  | null => simp [JSValue.image]
  | bool b => simp [JSValue.image]
  | num n => cases n <;> simp [JSValue.image]
  | str s => simp [JSValue.image]
  | arr items ih =>
    rw [JSValue.wf_arr] at h
    rintro j ⟨⟩
    rw [Json.wf_arr, imageItems_eq]
    intro y hy
    obtain ⟨x, hx, rfl⟩ := List.mem_map.mp hy
    cases hi : x.image with
    | none => simp
    | some j => exact ih x hx (h x hx) j hi
  | obj props image ih =>
    rw [JSValue.wf_obj] at h
    cases image with
    | some i => rintro j ⟨⟩; exact h.2.2 i rfl
    | none =>
      rintro j ⟨⟩
      rw [Json.wf_obj]
      refine ⟨h.1.sublist (imageProps_keys props), fun p hp => ?_⟩
      obtain ⟨x, hx, hj⟩ := mem_imageProps hp
      exact ih _ hx (h.2.1 _ hx) _ hj

/-- `JSON.stringify`. -/
def JSValue.stringify (v : JSValue) : Option JSString := v.image.map Json.text

/-- What the text of a value parses to. -/
theorem parse_stringify {v : JSValue} (h : v.Wf) {s : JSString} (hs : v.stringify = some s) :
    parse s = v.image := by
  obtain ⟨j, hj, rfl⟩ := Option.map_eq_some_iff.mp hs
  rw [hj]
  exact parse_text j (v.image_wf h j hj)

/-! ## Documents as values -/

mutual

/-- A document as the value it is. -/
def JSValue.ofJson : Json → JSValue
  | .null => .null
  | .bool b => .bool b
  | .num n => .num (some n)
  | .str s => .str s
  | .arr items => .arr (ofJsonItems items)
  | .obj props => .obj (ofJsonProps props) none

def ofJsonItems : List Json → List JSValue
  | [] => []
  | x :: xs => .ofJson x :: ofJsonItems xs

def ofJsonProps : List (JSString × Json) → List (JSString × JSValue)
  | [] => []
  | (k, x) :: xs => (k, .ofJson x) :: ofJsonProps xs

end

theorem ofJsonItems_eq (items : List Json) : ofJsonItems items = items.map .ofJson := by
  induction items with
  | nil => rfl
  | cons x xs ih => simp [ofJsonItems, ih]

theorem ofJsonProps_eq (props : List (JSString × Json)) :
    ofJsonProps props = props.map fun p => (p.1, .ofJson p.2) := by
  induction props with
  | nil => rfl
  | cons p ps ih => simp [ofJsonProps, ih]

@[simp] theorem JSValue.image_ofJson (j : Json) : (JSValue.ofJson j).image = some j := by
  induction j with
  | null => rfl
  | bool b => rfl
  | num n => rfl
  | str s => rfl
  | arr items ih =>
    simp only [JSValue.ofJson, JSValue.image, imageItems_eq, ofJsonItems_eq, List.map_map,
      Option.some.injEq, Json.arr.injEq]
    rw [List.map_congr_left (g := id) fun x hx => by simp [ih x hx], List.map_id]
  | obj props ih =>
    simp only [JSValue.ofJson, JSValue.image, imageProps_eq, ofJsonProps_eq, List.filterMap_map,
      Option.some.injEq, Json.obj.injEq]
    rw [List.filterMap_congr (g := some) fun p hp => by simp [ih p hp], List.filterMap_some]

theorem JSValue.wf_ofJson {j : Json} (h : j.Wf) : (JSValue.ofJson j).Wf := by
  induction j with
  | arr items ih =>
    rw [Json.wf_arr] at h
    rw [JSValue.ofJson, JSValue.wf_arr, ofJsonItems_eq]
    intro y hy
    obtain ⟨x, hx, rfl⟩ := List.mem_map.mp hy
    exact ih x hx (h x hx)
  | obj props ih =>
    rw [Json.wf_obj] at h
    rw [JSValue.ofJson, JSValue.wf_obj, ofJsonProps_eq, List.map_map]
    refine ⟨h.1, fun q hq => ?_, by simp⟩
    obtain ⟨p, hp, rfl⟩ := List.mem_map.mp hq
    exact ih p hp (h.2 p hp)
  | _ => simp [JSValue.ofJson, JSValue.Wf]

end LemonModel
