import LemonModel.Transport.Places
import LemonModel.Transport.Receive

/-!
# Assembling any manifest

`assembleJSON` for a manifest from the wire, whatever its root, its paths and the chunks.
`subst` is what assembly is meant to do: all places at once.
-/

namespace LemonModel

open Text

/-! ## Substitution -/

mutual

/-- The document with `f keys` at every place `keys` where `f` is defined. Below such a
place nothing is looked at. -/
def subst (f : List JSString → Option Json) : Json → Json
  | .arr items => (f []).getD (.arr (substItems f 0 items))
  | .obj props => (f []).getD (.obj (substProps f props))
  | .null => (f []).getD .null
  | .bool b => (f []).getD (.bool b)
  | .num n => (f []).getD (.num n)
  | .str s => (f []).getD (.str s)

def substItems (f : List JSString → Option Json) : Nat → List Json → List Json
  | _, [] => []
  | i, x :: xs => subst (fun keys => f (natText i :: keys)) x :: substItems f (i + 1) xs

def substProps (f : List JSString → Option Json) :
    List (JSString × Json) → List (JSString × Json)
  | [] => []
  | (k, x) :: props => (k, subst (fun keys => f (k :: keys)) x) :: substProps f props

end

theorem subst_some {f : List JSString → Option Json} {v : Json} (h : f [] = some v) (j : Json) :
    subst f j = v := by
  cases j <;> simp [subst, h]

theorem substItems_getElem? (f : List JSString → Option Json) (i n : Nat) (items : List Json) :
    (substItems f i items)[n]? = items[n]?.map (subst fun keys => f (natText (i + n) :: keys)) := by
  induction items generalizing i n with
  | nil => simp [substItems]
  | cons x xs ih =>
    cases n with
    | zero => simp [substItems]
    | succ n =>
      rw [substItems, List.getElem?_cons_succ, ih, List.getElem?_cons_succ]
      have shift : i + 1 + n = i + (n + 1) := by omega
      rw [shift]

theorem substProps_eq (f : List JSString → Option Json) (props : List (JSString × Json)) :
    substProps f props = props.map fun p => (p.1, subst (fun keys => f (p.1 :: keys)) p.2) := by
  induction props with
  | nil => rfl
  | cons p props ih =>
    obtain ⟨k, x⟩ := p
    rw [substProps, ih]
    rfl

theorem subst_none (j : Json) : subst (fun _ => none) j = j := by
  induction j with
  | arr items ih =>
    have same : substItems (fun _ => none) 0 items = items := by
      apply List.ext_getElem?
      intro n
      rw [substItems_getElem?]
      cases hn : items[n]? with
      | none => rfl
      | some x => exact congrArg some (ih x (List.mem_of_getElem? hn))
    simp [subst, same]
  | obj props ih =>
    have same : substProps (fun _ => none) props = props := by
      rw [substProps_eq]
      refine (List.map_congr_left fun p hp => ?_).trans (List.map_id props)
      exact Prod.ext rfl (ih p hp)
    simp [subst, same]
  | _ => simp [subst]

theorem lookup_substProps (f : List JSString → Option Json) (props : List (JSString × Json))
    (k : JSString) :
    (substProps f props).lookup k = (props.lookup k).map (subst fun keys => f (k :: keys)) := by
  induction props with
  | nil => rfl
  | cons p props ih =>
    obtain ⟨k', x⟩ := p
    by_cases own : k = k'
    · simp [substProps, own]
    · simp [substProps, List.lookup_cons, beq_false_of_ne own, ih]

/-! ## What a write leaves -/

theorem arrayIndex_eq {k : JSString} {i : Nat} (h : arrayIndex k = some i) : natText i = k := by
  unfold arrayIndex at h
  split at h
  · rename_i own
    rw [← Option.some.inj h]
    exact own
  · cases h

/-- A write at a member leaves the others. -/
theorem member_putMember_ne {j x : Json} {k k' : JSString} (v : Json) (h : member j k = some x)
    (other : k' ≠ k) : member (putMember j k v) k' = member j k' := by
  cases j with
  | arr items =>
    obtain ⟨i, hi, -⟩ := Option.bind_eq_some_iff.mp h
    simp only [member, putMember, hi]
    cases hi' : arrayIndex k' with
    | none => rfl
    | some i' =>
      have apart : i ≠ i' := by
        rintro rfl
        exact other ((arrayIndex_eq hi').symm.trans (arrayIndex_eq hi))
      simp [List.getElem?_set_ne apart]
  | obj props =>
    rw [putMember, member, member, lookup_setProp, if_neg other]
  | _ => cases h

theorem walk_put {keys : List JSString} {v root root' : Json} (h : put keys v root = some root') :
    walk root' keys = some v := by
  induction keys generalizing root root' with
  | nil => exact h.symm
  | cons k keys ih =>
    obtain ⟨child, found, rest⟩ := Option.bind_eq_some_iff.mp h
    obtain ⟨child', placed, rfl⟩ := Option.map_eq_some_iff.mp rest
    rw [walk, member_putMember child' found, Option.bind_some, ih placed]

/-- Neither place is on the way to the other. -/
def Unnested (p q : List JSString) : Prop := ¬ p <+: q ∧ ¬ q <+: p

theorem Unnested.tail {k : JSString} {p q : List JSString} (h : Unnested (k :: p) (k :: q)) :
    Unnested p q := by
  simpa [Unnested, List.cons_prefix_cons] using h

variable {root : Json}

/-- A write leaves every place that is apart from its own. -/
theorem walk_put_apart {p q : List JSString} {v root' : Json}
    (h : put p v root = some root') (apart : Unnested p q) : walk root' q = walk root q := by
  induction p generalizing q root root' with
  | nil => exact absurd List.nil_prefix apart.1
  | cons k p ih =>
    cases q with
    | nil => exact absurd List.nil_prefix apart.2
    | cons k' q =>
      obtain ⟨child, found, rest⟩ := Option.bind_eq_some_iff.mp h
      obtain ⟨child', placed, rfl⟩ := Option.map_eq_some_iff.mp rest
      rw [walk, walk]
      by_cases same : k' = k
      · subst same
        rw [member_putMember child' found, found, Option.bind_some, Option.bind_some]
        exact ih placed apart.tail
      · rw [member_putMember_ne child' found same]

/-- What a substitution has at one of its places. -/
theorem walk_subst {keys : List JSString} {f : List JSString → Option Json} {v x : Json}
    (here : walk root keys = some x) (own : f keys = some v)
    (above : ∀ p, p <+: keys → p ≠ keys → f p = none) :
    walk (subst f root) keys = some v := by
  induction keys generalizing root f with
  | nil => exact congrArg some (subst_some own root)
  | cons k keys ih =>
    obtain ⟨child, found, rest⟩ := Option.bind_eq_some_iff.mp here
    have top : f [] = none := above [] List.nil_prefix (List.cons_ne_nil k keys).symm
    have inner : walk (subst (fun q => f (k :: q)) child) keys = some v := by
      refine ih rest own fun p isPrefix other => above (k :: p) ?_ ?_
      · exact List.cons_prefix_cons.mpr ⟨rfl, isPrefix⟩
      · exact fun same => other (List.cons.inj same).2
    have kept : member (subst f root) k = some (subst (fun q => f (k :: q)) child) := by
      cases root with
      | arr items =>
        obtain ⟨i, hi, found⟩ := Option.bind_eq_some_iff.mp found
        simp [subst, top, member, hi, substItems_getElem?, found, arrayIndex_eq hi]
      | obj props =>
        have found : props.lookup k = some child := found
        simp [subst, top, member, lookup_substProps, found]
      | _ => cases found
    rw [walk, kept, Option.bind_some, inner]

/-- A place that is there can be written. -/
theorem put_of_walk {keys : List JSString} {x : Json} (v : Json)
    (h : walk root keys = some x) : ∃ root', put keys v root = some root' := by
  induction keys generalizing root with
  | nil => exact ⟨v, rfl⟩
  | cons k keys ih =>
    obtain ⟨child, found, rest⟩ := Option.bind_eq_some_iff.mp h
    obtain ⟨child', placed⟩ := ih rest
    exact ⟨putMember root k child', by rw [put, found, Option.bind_some, placed]; rfl⟩

/-- **A write, and then a substitution apart from it, are one substitution.** -/
theorem subst_put {keys : List JSString} {v root' : Json} {f : List JSString → Option Json}
    (wf : root.Wf) (h : put keys v root = some root')
    (apart : ∀ q, f q ≠ none → Unnested keys q) :
    subst f root' = subst (Function.update f keys (some v)) root := by
  induction keys generalizing f root root' with
  | nil =>
    have nothing : f = fun _ => none := by
      funext q
      by_contra there
      exact (apart q there).1 List.nil_prefix
    obtain rfl : v = root' := Option.some.inj h
    rw [subst_some (Function.update_self [] (some v) f), nothing, subst_none]
  | cons k keys ih =>
    have top : f [] = none := by
      by_contra there
      exact (apart [] there).2 List.nil_prefix
    have top' : Function.update f (k :: keys) (some v) [] = none := by
      rw [Function.update_of_ne (List.cons_ne_nil k keys).symm]
      exact top
    have below : (fun q => Function.update f (k :: keys) (some v) (k :: q)) =
        Function.update (fun q => f (k :: q)) keys (some v) := by
      funext q
      by_cases own : q = keys <;> simp [own]
    have beside : ∀ k', k' ≠ k → (fun q => Function.update f (k :: keys) (some v) (k' :: q)) =
        fun q => f (k' :: q) := by
      intro k' other
      funext q
      simp [other]
    obtain ⟨child, found, rest⟩ := Option.bind_eq_some_iff.mp h
    obtain ⟨child', placed, rfl⟩ := Option.map_eq_some_iff.mp rest
    have inner : child.Wf → subst (fun q => f (k :: q)) child' =
        subst (Function.update (fun q => f (k :: q)) keys (some v)) child := fun wf' =>
      ih wf' placed fun q there => (apart (k :: q) there).tail
    cases root with
    | arr items =>
      obtain ⟨i, hi, here⟩ := Option.bind_eq_some_iff.mp found
      have own := arrayIndex_eq hi
      have wf' := Json.wf_arr.mp wf child (List.mem_of_getElem? here)
      simp only [putMember, hi, subst, top, top', Option.getD_none]
      congr 1
      apply List.ext_getElem?
      intro n
      rw [substItems_getElem?, substItems_getElem?, Nat.zero_add]
      by_cases same : i = n
      · subst same
        have set : (items.set i child')[i]? = some child' :=
          List.getElem?_set_self (List.getElem?_eq_some_iff.mp here).1
        rw [own, below, here, set, Option.map_some, Option.map_some, inner wf']
      · have other : natText n ≠ k := fun index => same (natText_injective (own.trans index.symm))
        rw [List.getElem?_set_ne same, beside _ other]
    | obj props =>
      have unique : ∀ p ∈ props, p.1 = k → p.2 = child := by
        intro p hp own
        have entry := lookup_eq_some found
        have same := List.inj_on_of_nodup_map (Json.wf_obj.mp wf).1 hp entry own
        rw [same]
      have wf' : child.Wf := (Json.wf_obj.mp wf).2 _ (lookup_eq_some found)
      have present : k ∈ props.map Prod.fst := List.mem_map.mpr ⟨_, lookup_eq_some found, rfl⟩
      simp only [putMember, setProp, if_pos present, subst, top, top', Option.getD_none]
      congr 1
      rw [substProps_eq, substProps_eq, List.map_map]
      apply List.map_congr_left
      intro p hp
      by_cases own : p.1 = k
      · simp only [Function.comp_apply, own, if_true, below, unique p hp own]
        rw [inner wf']
      · simp only [Function.comp_apply, if_neg own, beside _ own]
    | _ => cases found

/-- A write keeps documents well formed. -/
theorem put_wf {keys : List JSString} {v root' : Json} (wf : root.Wf) (own : v.Wf)
    (h : put keys v root = some root') : root'.Wf := by
  induction keys generalizing root root' with
  | nil => exact Option.some.inj h ▸ own
  | cons k keys ih =>
    obtain ⟨child, found, rest⟩ := Option.bind_eq_some_iff.mp h
    obtain ⟨child', placed, rfl⟩ := Option.map_eq_some_iff.mp rest
    cases root with
    | arr items =>
      obtain ⟨i, hi, here⟩ := Option.bind_eq_some_iff.mp found
      have wf' := ih (Json.wf_arr.mp wf child (List.mem_of_getElem? here)) placed
      simp only [putMember, hi]
      refine Json.wf_arr.mpr fun x hx => ?_
      rcases List.mem_or_eq_of_mem_set hx with old | rfl
      · exact Json.wf_arr.mp wf x old
      · exact wf'
    | obj props =>
      have wf' := ih ((Json.wf_obj.mp wf).2 _ (lookup_eq_some found)) placed
      refine Json.wf_obj.mpr ⟨setProp_nodup k child' (Json.wf_obj.mp wf).1, fun p hp => ?_⟩
      rcases mem_setProp hp with old | rfl
      · exact (Json.wf_obj.mp wf).2 p old
      · exact wf'
    | _ => cases found

/-! ## The checks of a manifest -/

theorem prop?_wf {j x : Json} {k : JSString} (wf : j.Wf) (h : j.prop? k = some x) : x.Wf := by
  cases j with
  | obj props => exact (Json.wf_obj.mp wf).2 _ (lookup_eq_some h)
  | _ => cases h

theorem readPacket_root_wf {packetString : JSString} {m : JSONManifestPacket}
    (h : readPacket packetString = some (.manifest m)) : m.root.Wf := by
  obtain ⟨packet, parsed, read⟩ := Option.bind_eq_some_iff.mp h
  obtain ⟨type, -, read⟩ := Option.bind_eq_some_iff.mp read
  obtain ⟨tid, -, read⟩ := Option.bind_eq_some_iff.mp read
  split at read
  · obtain ⟨root, has, read⟩ := Option.bind_eq_some_iff.mp read
    split at read
    · obtain ⟨refs, -, made⟩ := Option.map_eq_some_iff.mp read
      cases made
      exact prop?_wf (parse_wf parsed) has
    · cases read
  · split at read
    · -- a chunk
      obtain ⟨cid, -, read⟩ := Option.bind_eq_some_iff.mp read
      obtain ⟨index, -, read⟩ := Option.bind_eq_some_iff.mp read
      obtain ⟨total, -, read⟩ := Option.bind_eq_some_iff.mp read
      obtain ⟨data, -, read⟩ := Option.bind_eq_some_iff.mp read
      obtain ⟨hash, -, read⟩ := Option.bind_eq_some_iff.mp read
      split at read <;> cases read
    · -- none of the others is a manifest
      split_ifs at read <;> simp at read

variable {m : JSONManifestPacket} {state : JSONReceiveState} {refs : List JSONChunkRef}
  {values : Dict JSString JSString}

/-- What the refs of a checked manifest are. -/
theorem validateRefs_sound {seen : List JSString} (h : validateRefs root seen refs = none) :
    (∀ ref ∈ refs, isJSONRefMarker (walk root (segments ref.path)) = some ref.cid) ∧
      (refs.map (·.cid)).Nodup ∧ ∀ ref ∈ refs, ref.cid ∉ seen := by
  induction refs generalizing seen with
  | nil => exact ⟨nofun, List.nodup_nil, nofun⟩
  | cons ref refs ih =>
    rw [validateRefs] at h
    split at h
    · cases h
    · rename_i fresh
      split at h
      · cases h
      · rename_i marked
        obtain ⟨markers, nodup, unseen⟩ := ih h
        rw [List.map_cons, List.nodup_cons]
        refine ⟨?_, ⟨fun mem => ?_, nodup⟩, ?_⟩
        · intro r hr
          rcases List.mem_cons.mp hr with rfl | hr
          · exact not_ne_iff.mp marked
          · exact markers r hr
        · obtain ⟨r, hr, same⟩ := List.mem_map.mp mem
          exact unseen r hr (same ▸ List.mem_cons_self)
        · intro r hr
          rcases List.mem_cons.mp hr with rfl | hr
          · exact fresh
          · exact fun old => unseen r hr (List.mem_cons_of_mem _ old)

/-! ## The chunks of a state -/

/-- Every ref's chunks are there. -/
def Gathered (state : JSONReceiveState) (refs : List JSONChunkRef) : Prop :=
  ∀ ref ∈ refs, (joinChunks state ref).isSome

theorem collectValues_gathered (h : Gathered state refs) (v : Dict JSString JSString) :
    ∃ values, collectValues state refs v = some values := by
  induction refs generalizing v with
  | nil => exact ⟨v, rfl⟩
  | cons ref refs ih =>
    obtain ⟨s, joined⟩ := Option.isSome_iff_exists.mp (h ref List.mem_cons_self)
    obtain ⟨values, collected⟩ := ih (fun r hr => h r (List.mem_cons_of_mem _ hr)) (v.set ref.cid s)
    exact ⟨values, by rw [collectValues, joined, Option.bind_some, collected]⟩

theorem gathered_of_collectValues {v : Dict JSString JSString}
    (h : collectValues state refs v = some values) : Gathered state refs := by
  induction refs generalizing v with
  | nil => exact nofun
  | cons ref refs ih =>
    obtain ⟨s, joined, rest⟩ := Option.bind_eq_some_iff.mp h
    intro r hr
    rcases List.mem_cons.mp hr with rfl | hr
    · rw [joined]
      rfl
    · exact ih rest r hr

/-- What is collected for a cid is the joined string of its ref. -/
theorem collectValues_get? {v : Dict JSString JSString} (nodup : (refs.map (·.cid)).Nodup)
    (h : collectValues state refs v = some values) :
    (∀ ref ∈ refs, values.get? ref.cid = joinChunks state ref) ∧
      ∀ cid ∉ refs.map (·.cid), values.get? cid = v.get? cid := by
  induction refs generalizing v with
  | nil =>
    obtain rfl : v = values := Option.some.inj h
    exact ⟨nofun, fun _ _ => rfl⟩
  | cons ref refs ih =>
    obtain ⟨s, joined, rest⟩ := Option.bind_eq_some_iff.mp h
    rw [List.map_cons, List.nodup_cons] at nodup
    obtain ⟨own, others⟩ := ih nodup.2 rest
    refine ⟨fun r hr => ?_, fun cid absent => ?_⟩
    · rcases List.mem_cons.mp hr with rfl | hr
      · rw [others _ nodup.1, Dict.get?_set_self, joined]
      · exact own r hr
    · rw [List.map_cons, List.mem_cons, not_or] at absent
      rw [others cid absent.2, Dict.get?_set_ne _ _ absent.1]

/-! ## Writing the values -/

/-- The string that belongs to a place. -/
def placed (state : JSONReceiveState) (refs : List JSONChunkRef) (keys : List JSString) :
    Option Json :=
  (refs.find? fun ref => segments ref.path = keys).bind fun ref =>
    (joinChunks state ref).map .str

theorem placed_some {keys : List JSString} (h : placed state refs keys ≠ none) :
    ∃ ref ∈ refs, segments ref.path = keys := by
  obtain ⟨v, defined⟩ := Option.ne_none_iff_exists'.mp h
  obtain ⟨ref, found, -⟩ := Option.bind_eq_some_iff.mp defined
  exact ⟨ref, List.mem_of_find?_eq_some found, by simpa using List.find?_some found⟩

/-- In a checked manifest the string at a ref's place is that ref's. -/
theorem placed_own {ref : JSONChunkRef} (markers : ∀ ref ∈ refs,
      isJSONRefMarker (walk root (segments ref.path)) = some ref.cid)
    (nodup : (refs.map (·.cid)).Nodup) (mem : ref ∈ refs) :
    placed state refs (segments ref.path) = (joinChunks state ref).map .str := by
  rw [placed]
  cases found : refs.find? fun r => segments r.path = segments ref.path with
  | none =>
    have absent := List.find?_eq_none.mp found ref mem
    simp at absent
  | some r =>
    have same : segments r.path = segments ref.path := by simpa using List.find?_some found
    have hr := List.mem_of_find?_eq_some found
    have cid := (markers r hr).symm.trans (same ▸ markers ref mem)
    rw [List.inj_on_of_nodup_map nodup hr mem (Option.some.inj cid)]
    rfl

/-- No place is the root, and none is inside another. -/
def Separate (refs : List JSONChunkRef) : Prop :=
  ∀ ref ∈ refs, segments ref.path ≠ [] ∧
    ∀ ref' ∈ refs, segments ref.path <+: segments ref'.path →
      segments ref.path = segments ref'.path

instance (refs : List JSONChunkRef) : Decidable (Separate refs) := by
  unfold Separate
  infer_instance

/-- **Writing at places apart from each other is the substitution.** -/
theorem placeValues_apart (wf : root.Wf)
    (joined : ∀ ref ∈ refs, ∃ s, values.get? ref.cid = some s ∧ joinChunks state ref = some s)
    (there : ∀ ref ∈ refs, ∃ x, walk root (segments ref.path) = some x)
    (nonempty : ∀ ref ∈ refs, segments ref.path ≠ [])
    (apart : refs.Pairwise fun a b => Unnested (segments a.path) (segments b.path)) :
    placeValues values refs root = .ok (some (subst (placed state refs) root)) := by
  induction refs generalizing root with
  | nil =>
    have nothing : placed state [] = fun _ => none := rfl
    rw [placeValues, nothing, subst_none]
  | cons ref refs ih =>
    obtain ⟨first, rest⟩ := List.pairwise_cons.mp apart
    obtain ⟨s, value, text⟩ := joined ref List.mem_cons_self
    obtain ⟨x, here⟩ := there ref List.mem_cons_self
    obtain ⟨root', write⟩ := put_of_walk (.str s) here
    have set : setByJSONPointer root ref.path (.str s) = .ok root' := by
      have ne := nonempty ref List.mem_cons_self
      rw [setByJSONPointer, if_neg ne, setAt_of_put ne write]
    have next := ih (put_wf wf (Json.wf_str s) write)
      (fun r hr => joined r (List.mem_cons_of_mem _ hr))
      (fun r hr => by
        rw [walk_put_apart write (first r hr)]
        exact there r (List.mem_cons_of_mem _ hr))
      (fun r hr => nonempty r (List.mem_cons_of_mem _ hr)) rest
    have both : Function.update (placed state refs) (segments ref.path) (some (.str s)) =
        placed state (ref :: refs) := by
      funext keys
      by_cases own : keys = segments ref.path
      · simp [placed, own, text]
      · simp [placed, own, Ne.symm own]
    rw [placeValues, value]
    simp only [set]
    rw [next, subst_put wf write, both]
    intro keys defined
    obtain ⟨r, hr, rfl⟩ := placed_some defined
    exact first r hr

/-! ## What assembly does -/

/-- `assembleJSON` does not throw; and what it returns is the manifest's root with the
joined string at every ref's place, and nothing else changed. -/
def Assembles (m : JSONManifestPacket) (state : JSONReceiveState) : Prop :=
  ∃ r, assembleJSON state = .ok r ∧ ∀ j, r = some j →
    (∀ ref ∈ m.refs, ∃ s, joinChunks state ref = some s ∧
      walk j (segments ref.path) = some (.str s)) ∧
    j = subst (placed state m.refs) m.root

/-- The state is to be assembled now. -/
def Ready (m : JSONManifestPacket) (state : JSONReceiveState) : Prop :=
  state.complete = true ∧ state.emitted = false ∧ Gathered state m.refs

theorem assembleJSON_unready (own : state.manifest = some m) (unready : ¬ Ready m state) :
    assembleJSON state = .ok none := by
  rw [assembleJSON, own]
  simp only
  split
  · rfl
  · rename_i due
    have due' : state.complete = true ∧ state.emitted = false := by simpa using due
    cases collected : collectValues state m.refs .empty with
    | none => rfl
    | some values =>
      exact absurd ⟨due'.1, due'.2, gathered_of_collectValues collected⟩ unready

theorem assembleJSON_ready (own : state.manifest = some m) (wf : m.root.Wf)
    (nodup : (m.refs.map (·.cid)).Nodup) (ready : Ready m state) :
    ∃ values : Dict JSString JSString,
      assembleJSON state = placeValues values m.refs m.root ∧
      ∀ ref ∈ m.refs, ∃ s, values.get? ref.cid = some s ∧ joinChunks state ref = some s := by
  obtain ⟨complete, emitted, gathered⟩ := ready
  obtain ⟨values, collected⟩ := collectValues_gathered gathered .empty
  refine ⟨values, ?_, fun ref hr => ?_⟩
  · rw [assembleJSON, own]
    simp [complete, emitted, collected, cloneJSON_eq wf]
  · obtain ⟨s, joined⟩ := Option.isSome_iff_exists.mp (gathered ref hr)
    exact ⟨s, ((collectValues_get? nodup collected).1 ref hr).trans joined, joined⟩

/-- Distinct refs of a checked manifest are at distinct places. -/
theorem apart_of_separate (markers : ∀ ref ∈ refs,
      isJSONRefMarker (walk root (segments ref.path)) = some ref.cid)
    (nodup : (refs.map (·.cid)).Nodup) (separate : Separate refs) :
    refs.Pairwise fun a b => Unnested (segments a.path) (segments b.path) := by
  rw [List.Nodup, List.pairwise_map] at nodup
  refine nodup.imp_of_mem fun {a b} ha hb other => ?_
  have distinct : segments a.path ≠ segments b.path := by
    intro same
    have cid := (markers a ha).symm.trans (same ▸ markers b hb)
    exact other (Option.some.inj cid)
  exact ⟨fun p => distinct ((separate a ha).2 b hb p),
    fun p => distinct ((separate b hb).2 a ha p).symm⟩

/-- A ready state whose places are apart is assembled, all places at once. -/
theorem assembleJSON_separate (own : state.manifest = some m) (wf : m.root.Wf)
    (markers : ∀ ref ∈ m.refs, isJSONRefMarker (walk m.root (segments ref.path)) = some ref.cid)
    (nodup : (m.refs.map (·.cid)).Nodup) (ready : Ready m state) (separate : Separate m.refs) :
    assembleJSON state = .ok (some (subst (placed state m.refs) m.root)) ∧
      ∀ ref ∈ m.refs, ∃ s, joinChunks state ref = some s ∧
        walk (subst (placed state m.refs) m.root) (segments ref.path) = some (.str s) := by
  obtain ⟨values, same, joined⟩ := assembleJSON_ready own wf nodup ready
  have apart := apart_of_separate markers nodup separate
  have there : ∀ ref ∈ m.refs, ∃ x, walk m.root (segments ref.path) = some x := by
    intro ref hr
    have marker := markers ref hr
    cases found : walk m.root (segments ref.path) with
    | none =>
      rw [found] at marker
      cases marker
    | some x => exact ⟨x, rfl⟩
  have nonempty : ∀ ref ∈ m.refs, segments ref.path ≠ [] := fun ref hr => (separate ref hr).1
  refine ⟨same.trans (placeValues_apart wf joined there nonempty apart), fun ref hr => ?_⟩
  obtain ⟨s, -, text⟩ := joined ref hr
  obtain ⟨x, here⟩ := there ref hr
  refine ⟨s, text, walk_subst here ?_ ?_⟩
  · rw [placed_own markers nodup hr, text]
    rfl
  · intro p isPrefix other
    by_contra defined
    obtain ⟨r, hr', rfl⟩ := placed_some defined
    exact other ((separate r hr').2 ref hr isPrefix)

/-- Either a write throws, or there is a document and no place is the root. -/
theorem placeValues_some (known : ∀ ref ∈ refs, ∃ s, values.get? ref.cid = some s)
    (root : Json) :
    (∃ e, placeValues values refs root = .error e) ∨
      ((∃ j, placeValues values refs root = .ok (some j)) ∧
        ∀ ref ∈ refs, segments ref.path ≠ []) := by
  induction refs generalizing root with
  | nil => exact .inr ⟨⟨root, rfl⟩, nofun⟩
  | cons ref refs ih =>
    obtain ⟨s, value⟩ := known ref List.mem_cons_self
    rw [placeValues, value]
    simp only
    cases set : setByJSONPointer root ref.path (.str s) with
    | error e => exact .inl ⟨e, rfl⟩
    | ok root' =>
      rcases ih (fun r hr => known r (List.mem_cons_of_mem _ hr)) root' with thrown | ⟨made, nonempty⟩
      · exact .inl thrown
      · refine .inr ⟨made, fun r hr => ?_⟩
        rcases List.mem_cons.mp hr with rfl | hr
        · intro empty
          rw [setByJSONPointer, if_pos empty] at set
          cases set
        · exact nonempty r hr

/-- No place leads through a string. -/
theorem walk_through {p q : List JSString} {s : JSString} {y : Json}
    (hp : walk root p = some (.str s)) (hq : walk root q = some y) (isPrefix : p <+: q) : p = q := by
  induction p generalizing q root with
  | nil =>
    obtain rfl : root = .str s := Option.some.inj hp
    cases q with
    | nil => rfl
    | cons k q => cases hq
  | cons k p ih =>
    cases q with
    | nil => exact absurd (List.prefix_nil.mp isPrefix) (List.cons_ne_nil k p)
    | cons k' q =>
      obtain ⟨rfl, rest⟩ := List.cons_prefix_cons.mp isPrefix
      obtain ⟨child, found, hp⟩ := Option.bind_eq_some_iff.mp hp
      rw [walk, found, Option.bind_some] at hq
      rw [ih hp hq rest]

/-- **When a checked manifest is assembled faithfully.** For a manifest from the wire that
passes its check and any state that has it, assembly does not throw and replaces exactly
the places of the refs, exactly if the state is not ready or no ref is at the root or
inside another. -/
theorem assembly_faithful {packetString : JSString}
    (read : readPacket packetString = some (.manifest m)) (valid : validateManifest m = none)
    (own : state.manifest = some m) :
    Assembles m state ↔ (Ready m state → Separate m.refs) := by
  have wf := readPacket_root_wf read
  obtain ⟨markers, nodup, -⟩ := validateRefs_sound valid
  by_cases ready : Ready m state
  · obtain ⟨values, same, joined⟩ := assembleJSON_ready own wf nodup ready
    constructor
    · rintro ⟨r, made, faithful⟩ _
      have known : ∀ ref ∈ m.refs, ∃ s, values.get? ref.cid = some s := fun ref hr =>
        (joined ref hr).imp fun _ h => h.1
      rcases placeValues_some known m.root with ⟨e, thrown⟩ | ⟨⟨j, out⟩, nonempty⟩
      · rw [same, thrown] at made
        cases made
      · rw [same, out] at made
        obtain ⟨positions, -⟩ := faithful j (Except.ok.inj made).symm
        refine fun ref hr => ⟨nonempty ref hr, fun ref' hr' inside => ?_⟩
        obtain ⟨s, -, here⟩ := positions ref hr
        obtain ⟨s', -, here'⟩ := positions ref' hr'
        exact walk_through here here' inside
    · intro separate
      obtain ⟨made, positions⟩ := assembleJSON_separate own wf markers nodup ready (separate ready)
      refine ⟨_, made, ?_⟩
      rintro j out
      obtain rfl := Option.some.inj out
      exact ⟨positions, rfl⟩
  · have idle := assembleJSON_unready own ready
    exact iff_of_true ⟨none, idle, nofun⟩ fun now => absurd now ready

/-! One large leaf, inside an object and as the root. -/

def bigMarker : Json := .obj [(lit "$jsonTransportRef", .str (lit "c"))]

def cutAt (root : Json) (path : JSString) : JSONManifestPacket :=
  ⟨lit "t", root, [⟨lit "c", path, lit "utf8", 2, 1, by decide⟩]⟩

/-- The state once the manifest, its chunk and the end of the message are in. -/
def JSONReceiveState.cutIn (m : JSONManifestPacket) : JSONReceiveState :=
  JSONReceiveState.buffer
    { JSONReceiveState.fresh (lit "t") 0 with manifest := some m, complete := true }
    ⟨lit "t", lit "c", 0, 1, lit "hi", hashString (lit "hi"), by decide⟩

theorem assembly_faithful_member :
    Assembles (cutAt (.obj [(lit "a", bigMarker)]) (lit "/a"))
      (.cutIn (cutAt (.obj [(lit "a", bigMarker)]) (lit "/a"))) :=
  have read : readPacket
      (JSONTransportPacket.manifest (cutAt (.obj [(lit "a", bigMarker)]) (lit "/a"))).wire =
      some (.manifest (cutAt (.obj [(lit "a", bigMarker)]) (lit "/a"))) := by decide +kernel
  (assembly_faithful read (by decide +kernel) rfl).mpr fun _ => by decide +kernel

/-- The check reads the path `""` as the root; the write throws on it. -/
theorem manifest_check_insufficient :
    ¬ ∀ (packetString : JSString) (m : JSONManifestPacket) (state : JSONReceiveState),
      readPacket packetString = some (.manifest m) → validateManifest m = none →
      state.manifest = some m → validateBufferedChunks m state = none →
      validateCompletedChunkSizes state = none → Assembles m state := by
  intro every
  obtain ⟨r, made, -⟩ := every (JSONTransportPacket.manifest (cutAt bigMarker [])).wire
    (cutAt bigMarker []) (.cutIn (cutAt bigMarker [])) (by decide +kernel) (by decide +kernel) rfl
    (by decide +kernel) (by decide +kernel)
  have thrown : assembleJSON (.cutIn (cutAt bigMarker [])) =
      .error (lit "@path is required - json.ref.path") := by decide +kernel
  rw [thrown] at made
  cases made

end LemonModel
