import LemonModel.Transport.Assemble
import LemonModel.Transport.Pieces

/-!
# Addresses

Positions in a document, the paths `cloneAndSplit` builds for them, and what reading and
writing at such a path does.
-/

namespace LemonModel

open Text

/-- One step down into a document. -/
inductive Step where
  | item (index : Nat)
  | prop (key : JSString)

namespace Step

/-- The member the step goes to, as `cursor[key]` names it. -/
def key : Step → JSString
  | item index => natText index
  | prop key => key

/-- The path `cloneAndSplit` hands on with the child. -/
def extend (path : JSString) : Step → JSString
  | item index => path ++ unit '/' :: natText index
  | prop key => path ++ unit '/' :: escapeJSONPointer key

theorem extend_eq (path : JSString) (step : Step) :
    step.extend path = path ++ unit '/' :: escapeJSONPointer step.key := by
  cases step with
  | item index => rw [extend, key, escape_natText]
  | prop key => rfl

end Step

/-- The path of a position. -/
def builtPath (steps : List Step) : JSString := steps.foldl Step.extend []

theorem foldl_extend (path : JSString) (steps : List Step) :
    steps.foldl Step.extend path = path ++ pathText (steps.map Step.key) := by
  induction steps generalizing path with
  | nil => exact (List.append_nil path).symm
  | cons step steps ih =>
    rw [List.foldl_cons, ih, step.extend_eq, List.map_cons, pathText_cons]
    simp

theorem builtPath_eq (steps : List Step) : builtPath steps = pathText (steps.map Step.key) :=
  foldl_extend [] steps

theorem segments_builtPath (steps : List Step) :
    segments (builtPath steps) = steps.map Step.key := by
  rw [builtPath_eq, segments_pathText]

/-! ## Positions -/

/-- The member a step leads to. -/
def childAt : Json → Step → Option Json
  | .arr items, .item index => items[index]?
  | .obj props, .prop key => props.lookup key
  | _, _ => none

/-- What stands at a position. -/
def reach (j : Json) : List Step → Option Json
  | [] => some j
  | step :: steps => (childAt j step).bind fun x => reach x steps

theorem member_of_childAt {j x : Json} {step : Step} (h : childAt j step = some x) :
    member j step.key = some x := by
  cases j with
  | arr items =>
    cases step with
    | item index => exact member_item h
    | prop key => cases h
  | obj props =>
    cases step with
    | item index => cases h
    | prop key => exact h
  | _ => cases h

theorem childAt_of_member {j x : Json} {k : JSString} (h : member j k = some x) :
    ∃ step : Step, step.key = k ∧ childAt j step = some x := by
  cases j with
  | arr items =>
    obtain ⟨index, hi, found⟩ := Option.bind_eq_some_iff.mp h
    exact ⟨.item index, arrayIndex_eq hi, found⟩
  | obj props => exact ⟨.prop k, rfl, h⟩
  | _ => cases h

/-- Two children of one value under one name are one child. -/
theorem step_eq_of_key {j x y : Json} {a b : Step} (ha : childAt j a = some x)
    (hb : childAt j b = some y) (same : a.key = b.key) : a = b := by
  cases j with
  | arr items =>
    cases a with
    | item i =>
      cases b with
      | item i' => exact congrArg Step.item (natText_injective same)
      | prop key => cases hb
    | prop key => cases ha
  | obj props =>
    cases a with
    | item i => cases ha
    | prop k =>
      cases b with
      | item i => cases hb
      | prop k' => exact congrArg Step.prop same
  | _ => cases ha

theorem walk_of_reach {j x : Json} {steps : List Step} (h : reach j steps = some x) :
    walk j (steps.map Step.key) = some x := by
  induction steps generalizing j with
  | nil => exact h
  | cons step steps ih =>
    obtain ⟨child, found, rest⟩ := Option.bind_eq_some_iff.mp h
    rw [List.map_cons, walk, member_of_childAt found, Option.bind_some, ih rest]

/-- A list of keys that leads somewhere is a position. -/
theorem reach_of_walk {j x : Json} {keys : List JSString} (h : walk j keys = some x) :
    ∃ steps : List Step, steps.map Step.key = keys ∧ reach j steps = some x := by
  induction keys generalizing j with
  | nil => exact ⟨[], rfl, h⟩
  | cons k keys ih =>
    obtain ⟨child, found, rest⟩ := Option.bind_eq_some_iff.mp h
    obtain ⟨step, rfl, here⟩ := childAt_of_member found
    obtain ⟨steps, rfl, below⟩ := ih rest
    exact ⟨step :: steps, rfl, by rw [reach, here, Option.bind_some, below]⟩

theorem steps_eq_of_keys {j x y : Json} {a b : List Step} (ha : reach j a = some x)
    (hb : reach j b = some y) (same : a.map Step.key = b.map Step.key) : a = b := by
  induction a generalizing j b with
  | nil => exact (List.map_eq_nil_iff.mp same.symm).symm
  | cons s a ih =>
    cases b with
    | nil => cases same
    | cons t b =>
      rw [List.map_cons, List.map_cons, List.cons.injEq] at same
      obtain ⟨child, found, rest⟩ := Option.bind_eq_some_iff.mp ha
      obtain ⟨child', found', rest'⟩ := Option.bind_eq_some_iff.mp hb
      obtain rfl := step_eq_of_key found found' same.1
      obtain rfl := Option.some.inj (found.symm.trans found')
      rw [ih rest rest' same.2]

/-! ## The paths that are recorded -/

theorem spots_reach {j : Json} (wf : j.Wf) (options : SplitOptions) (path : JSString) :
    ∀ spot ∈ (JSValue.ofJson j).spots options path,
      ∃ steps : List Step, steps.map Step.key = spot.1 ∧ reach j steps = some (.str spot.2) := by
  induction j generalizing path with
  | str s =>
    intro spot mem
    simp only [JSValue.ofJson, JSValue.spots] at mem
    split at mem
    · obtain rfl := List.mem_singleton.mp mem
      exact ⟨[], rfl, rfl⟩
    · cases mem
  | arr items ih =>
    rw [Json.wf_arr] at wf
    intro spot mem
    rw [JSValue.ofJson, JSValue.spots, ofJsonItems_eq] at mem
    obtain ⟨i, _, found, inner, own, rfl⟩ := mem_spotsItems mem
    rw [List.getElem?_map] at found
    obtain ⟨x, here, rfl⟩ := Option.map_eq_some_iff.mp found
    have hx : x ∈ items := List.mem_of_getElem? here
    obtain ⟨steps, names, below⟩ := ih x hx (wf x hx) _ inner own
    refine ⟨.item i :: steps, ?_, ?_⟩
    · rw [List.map_cons, names, Nat.zero_add]
      rfl
    · have child : childAt (.arr items) (.item i) = some x := here
      rw [reach, child, Option.bind_some, below]
      rfl
  | obj props ih =>
    rw [Json.wf_obj] at wf
    intro spot mem
    rw [JSValue.ofJson, JSValue.spots, ofJsonProps_eq] at mem
    obtain ⟨_, _, found, inner, own, rfl⟩ := mem_spotsProps mem
    obtain ⟨⟨k, x⟩, hp, same⟩ := List.mem_map.mp found
    cases same
    obtain ⟨steps, names, below⟩ := ih (k, x) hp (wf.2 _ hp) _ inner own
    refine ⟨.prop k :: steps, ?_, ?_⟩
    · rw [List.map_cons, names]
      rfl
    · have child : childAt (.obj props) (.prop k) = some x := lookup_of_mem wf.1 hp
      rw [reach, child, Option.bind_some, below]
      rfl
  | _ =>
    intro spot mem
    cases mem

/-- A string that is cut out is recorded under the path of its position. -/
theorem cloneAndSplit_paths {j : Json} (wf : j.Wf) {options : SplitOptions}
    {cid : Nat → JSString} {w : JSValue} {out : SplitOutput}
    (h : cloneAndSplit options cid [] ⟨[], []⟩ (.ofJson j) = some (w, out)) :
    ∀ ref ∈ out.refs, ∃ steps s, reach j steps = some (.str s) ∧ ref.path = builtPath steps := by
  intro ref mem
  obtain ⟨pieces, cuts, spots, -⟩ := cloneAndSplit_cuts (JSValue.wf_ofJson wf) _ _ _ _ h
  rw [cuts.refs, List.nil_append] at mem
  obtain ⟨piece, hp, rfl⟩ := List.mem_map.mp mem
  have spot : piece.spot ∈ (JSValue.ofJson j).spots options [] :=
    spots ▸ List.mem_map_of_mem hp
  obtain ⟨steps, names, found⟩ := spots_reach wf options [] _ spot
  exact ⟨steps, piece.value, found, by rw [builtPath_eq, names]; rfl⟩

/-! ## Reading and writing -/

theorem getByJSONPointer_builtPath {j x : Json} {steps : List Step}
    (h : reach j steps = some x) : getByJSONPointer j (builtPath steps) = some x := by
  rw [getByJSONPointer, segments_builtPath, walk_of_reach h]

/-- A write at a position below the root is read back, and no place is touched that is
neither above nor below it. -/
theorem setByJSONPointer_builtPath {j x : Json} {steps : List Step} (h : reach j steps = some x)
    (ne : steps ≠ []) (value : Json) :
    ∃ j', setByJSONPointer j (builtPath steps) value = .ok j' ∧
      getByJSONPointer j' (builtPath steps) = some value ∧
      ∀ path, Unnested (segments (builtPath steps)) (segments path) →
        getByJSONPointer j' path = getByJSONPointer j path := by
  have names : steps.map Step.key ≠ [] := mt List.map_eq_nil_iff.mp ne
  obtain ⟨j', placed⟩ := put_of_walk value (walk_of_reach h)
  refine ⟨j', ?_, ?_, fun path apart => ?_⟩
  · rw [builtPath_eq]
    exact setByJSONPointer_of_put names placed
  · rw [getByJSONPointer, segments_builtPath]
    exact walk_put placed
  · rw [segments_builtPath] at apart
    exact walk_put_apart placed apart

/-- The path of a position below the root names it alone, spells its keys, and reads and
writes what stands there; what `cloneAndSplit` records are such paths. -/
theorem pointers_faithful (root : Json) (wf : root.Wf) :
    (∀ options cid w out,
      cloneAndSplit options cid [] ⟨[], []⟩ (.ofJson root) = some (w, out) →
      ∀ ref ∈ out.refs, ∃ steps s,
        reach root steps = some (.str s) ∧ ref.path = builtPath steps) ∧
    (∀ keys x, walk root keys = some x →
      ∃ steps, steps.map Step.key = keys ∧ reach root steps = some x) ∧
    (∀ a b, (reach root a).isSome → (reach root b).isSome → builtPath a = builtPath b → a = b) ∧
    (∀ steps x, reach root steps = some x →
      segments (builtPath steps) = steps.map Step.key ∧
      getByJSONPointer root (builtPath steps) = some x) ∧
    ∀ steps value, (reach root steps).isSome → steps ≠ [] →
      ∃ root', setByJSONPointer root (builtPath steps) value = .ok root' ∧
        getByJSONPointer root' (builtPath steps) = some value ∧
        ∀ path, Unnested (segments (builtPath steps)) (segments path) →
          getByJSONPointer root' path = getByJSONPointer root path := by
  refine ⟨fun options cid w out => cloneAndSplit_paths wf, fun keys x => reach_of_walk,
    fun a b ha hb same => ?_, fun steps x found =>
    ⟨segments_builtPath steps, getByJSONPointer_builtPath found⟩, fun steps value found ne => ?_⟩
  · obtain ⟨x, ha⟩ := Option.isSome_iff_exists.mp ha
    obtain ⟨y, hb⟩ := Option.isSome_iff_exists.mp hb
    have names := congrArg segments same
    rw [segments_builtPath, segments_builtPath] at names
    exact steps_eq_of_keys ha hb names
  · obtain ⟨x, found⟩ := Option.isSome_iff_exists.mp found
    exact setByJSONPointer_builtPath found ne value

/-- Awkward keys: an empty one, a slash, a tilde, and what a tilde is escaped as. -/
def awkward : Json :=
  .obj [([], .arr [.obj [(lit "~01", .null), (lit "/", .null)]]), (lit "0", .str (lit "zero"))]

def slashStep : List Step := [.prop [], .item 0, .prop (lit "/")]

theorem pointers_faithful_awkward :
    segments (builtPath slashStep) = [[], lit "0", lit "/"] ∧
      ∃ root', setByJSONPointer awkward (builtPath slashStep) (.bool true) = .ok root' ∧
        getByJSONPointer root' (builtPath slashStep) = some (.bool true) ∧
        getByJSONPointer root' (lit "//0/~001") = getByJSONPointer awkward (lit "//0/~001") := by
  have wf : awkward.Wf := by simp [awkward, Json.Wf, WfItems, WfProps, lit, unit]
  obtain ⟨-, -, -, spelled, written⟩ := pointers_faithful awkward wf
  obtain ⟨root', stored, got, kept⟩ := written slashStep (.bool true) (by decide) (by decide)
  have apart : Unnested (segments (builtPath slashStep)) (segments (lit "//0/~001")) := by
    unfold Unnested
    decide
  exact ⟨(spelled slashStep .null rfl).1, root', stored, got, kept _ apart⟩

/-- No value can be set at the root, and one that is set is seen from above. -/
theorem pointer_set_above :
    (¬ ∀ (root value : Json) (keys : List JSString), (walk root keys).isSome →
      ∃ root', setByJSONPointer root (pathText keys) value = .ok root' ∧
        getByJSONPointer root' (pathText keys) = some value) ∧
    ¬ ∀ (root root' value : Json) (keys other : List JSString), (walk root keys).isSome →
      setByJSONPointer root (pathText keys) value = .ok root' → ¬ keys <+: other →
      getByJSONPointer root' (pathText other) = getByJSONPointer root (pathText other) := by
  constructor
  · intro claimed
    obtain ⟨root', stored, -⟩ := claimed (.obj []) .null [] rfl
    cases stored
  · intro claimed
    have same := claimed (.obj [([], .null)]) (.obj [([], .bool true)]) (.bool true) [[]] [] rfl rfl
      (by decide)
    cases same

end LemonModel
