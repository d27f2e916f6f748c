import Mathlib.Data.List.Basic
import Mathlib.Data.List.Nodup
import Mathlib.Tactic

/-!
# Insertion-ordered maps

`Dict` is an ECMAScript `Map`: distinct keys in the order they were first set.
Setting a present key changes its value in place; deleting a key and setting it
again moves it to the end.
-/

namespace LemonModel

structure Dict (κ ν : Type) [DecidableEq κ] where
  entries : List (κ × ν)
  nodup : (entries.map Prod.fst).Nodup

namespace Dict

variable {κ ν : Type} [DecidableEq κ]

def empty : Dict κ ν := ⟨[], by simp⟩

instance : Inhabited (Dict κ ν) := ⟨empty⟩

theorem entries_inj {a b : Dict κ ν} : a.entries = b.entries ↔ a = b :=
  ⟨fun h => by cases a; cases b; cases h; rfl, congrArg _⟩

instance [DecidableEq ν] : DecidableEq (Dict κ ν) := fun _ _ => decidable_of_iff _ entries_inj

def get? (d : Dict κ ν) (k : κ) : Option ν := (d.entries.find? (·.1 = k)).map (·.2)

def has (d : Dict κ ν) (k : κ) : Bool := (d.get? k).isSome

def size (d : Dict κ ν) : Nat := d.entries.length

theorem map_fst_update (l : List (κ × ν)) (k : κ) (v : ν) :
    (l.map fun p => if p.1 = k then (k, v) else p).map Prod.fst = l.map Prod.fst := by
  rw [List.map_map]
  apply List.map_congr_left
  intro p _
  by_cases h : p.1 = k <;> simp [h]

def set (d : Dict κ ν) (k : κ) (v : ν) : Dict κ ν :=
  if h : k ∈ d.entries.map Prod.fst then
    ⟨d.entries.map fun p => if p.1 = k then (k, v) else p, by rw [map_fst_update]; exact d.nodup⟩
  else
    ⟨d.entries ++ [(k, v)], by
      rw [List.map_append, List.map_singleton, List.nodup_append]
      exact ⟨d.nodup, by simp, fun a ha b hb => by
        rintro rfl
        exact h (by rw [List.mem_singleton] at hb; rwa [hb] at ha)⟩⟩

def filter (d : Dict κ ν) (p : κ → ν → Bool) : Dict κ ν :=
  ⟨d.entries.filter fun e => p e.1 e.2, d.nodup.sublist (List.filter_sublist.map _)⟩

def delete (d : Dict κ ν) (k : κ) : Dict κ ν := d.filter fun k' _ => decide (k' ≠ k)

/-- The keys in order. -/
def keys (d : Dict κ ν) : List κ := d.entries.map Prod.fst

theorem get?_eq_some {d : Dict κ ν} {k : κ} {v : ν} : d.get? k = some v ↔ (k, v) ∈ d.entries := by
  obtain ⟨l, hl⟩ := d
  simp only [get?]
  induction l with
  | nil => simp
  | cons p l ih =>
    rw [List.map_cons, List.nodup_cons] at hl
    by_cases hp : p.1 = k
    · rw [List.find?_cons_of_pos (by simp [hp])]
      constructor
      · intro h
        obtain rfl : p.2 = v := by simpa using h
        exact List.mem_cons.mpr (.inl (by rw [← hp]))
      · intro h
        rcases List.mem_cons.mp h with rfl | h
        · rfl
        · exact absurd (List.mem_map.mpr ⟨_, h, rfl⟩) (hp ▸ hl.1)
    · rw [List.find?_cons_of_neg (by simp [hp]), ih hl.2, List.mem_cons]
      refine ⟨.inr, ?_⟩
      rintro (rfl | h)
      · exact absurd rfl hp
      · exact h

theorem get?_eq_none {d : Dict κ ν} {k : κ} : d.get? k = none ↔ k ∉ d.keys := by
  simp only [get?, keys, Option.map_eq_none_iff, List.find?_eq_none, decide_eq_true_eq,
    List.mem_map, not_exists, not_and]

theorem has_iff {d : Dict κ ν} {k : κ} : d.has k = true ↔ ∃ v, d.get? k = some v := by
  simp [has, Option.isSome_iff_exists]

theorem has_eq_false {d : Dict κ ν} {k : κ} : d.has k = false ↔ d.get? k = none := by
  simp [has]

theorem mem_keys {d : Dict κ ν} {k : κ} : k ∈ d.keys ↔ ∃ v, d.get? k = some v := by
  rw [← not_iff_not, ← get?_eq_none]
  cases d.get? k <;> simp

@[simp] theorem get?_empty (k : κ) : (empty : Dict κ ν).get? k = none := rfl

@[simp] theorem has_empty (k : κ) : (empty : Dict κ ν).has k = false := rfl

@[simp] theorem entries_empty : (empty : Dict κ ν).entries = [] := rfl

theorem get?_filter (d : Dict κ ν) (p : κ → ν → Bool) (k : κ) :
    (d.filter p).get? k = (d.get? k).filter (p k) := by
  apply Option.ext
  intro v
  rw [get?_eq_some, Option.filter_eq_some_iff, get?_eq_some]
  simp [filter]

theorem get?_set (d : Dict κ ν) (k k' : κ) (v : ν) :
    (d.set k v).get? k' = if k' = k then some v else d.get? k' := by
  apply Option.ext
  intro w
  rw [get?_eq_some]
  unfold set
  split
  · rename_i hk
    simp only [List.mem_map]
    constructor
    · rintro ⟨p, hp, he⟩
      by_cases hpk : p.1 = k
      · rw [if_pos hpk] at he
        cases he
        simp
      · rw [if_neg hpk] at he
        subst he
        rw [if_neg hpk, get?_eq_some.mpr hp]
    · by_cases hkk : k' = k
      · rw [if_pos hkk]
        intro h
        obtain rfl : v = w := by simpa using h
        obtain ⟨p, hp, hpk⟩ := List.mem_map.mp hk
        exact ⟨p, hp, by simp [hpk, hkk]⟩
      · rw [if_neg hkk]
        intro h
        exact ⟨(k', w), get?_eq_some.mp h, by simp [hkk]⟩
  · rename_i hk
    simp only [List.mem_append, List.mem_singleton, Prod.mk.injEq]
    by_cases hkk : k' = k
    · rw [if_pos hkk]
      subst hkk
      constructor
      · rintro (h | ⟨_, rfl⟩)
        · exact absurd (List.mem_map.mpr ⟨_, h, rfl⟩) hk
        · rfl
      · rintro h
        exact .inr ⟨rfl, by simpa using h.symm⟩
    · rw [if_neg hkk, ← get?_eq_some]
      simp [hkk]

@[simp] theorem get?_set_self (d : Dict κ ν) (k : κ) (v : ν) : (d.set k v).get? k = some v := by
  simp [get?_set]

theorem get?_set_ne (d : Dict κ ν) {k k' : κ} (v : ν) (h : k' ≠ k) :
    (d.set k v).get? k' = d.get? k' := by
  simp [get?_set, h]

theorem entries_set_present {d : Dict κ ν} {k : κ} (h : k ∈ d.keys) (v : ν) :
    (d.set k v).entries = d.entries.map fun p => if p.1 = k then (k, v) else p := by
  unfold set
  split
  · rfl
  · exact absurd h ‹_›

theorem entries_set_absent {d : Dict κ ν} {k : κ} (h : k ∉ d.keys) (v : ν) :
    (d.set k v).entries = d.entries ++ [(k, v)] := by
  unfold set
  split
  · exact absurd ‹_› h
  · rfl

theorem set_set (d : Dict κ ν) (k : κ) (v w : ν) : (d.set k v).set k w = d.set k w := by
  apply entries_inj.mp
  have present : k ∈ (d.set k v).keys := mem_keys.mpr ⟨v, get?_set_self d k v⟩
  rw [entries_set_present present]
  by_cases hk : k ∈ d.keys
  · rw [entries_set_present hk, entries_set_present hk, List.map_map]
    apply List.map_congr_left
    intro p _
    by_cases h : p.1 = k <;> simp [h]
  · rw [entries_set_absent hk, entries_set_absent hk, List.map_append]
    congr 1
    · rw [List.map_congr_left (g := id), List.map_id]
      intro p hp
      have : p.1 ≠ k := fun h => hk (h ▸ List.mem_map_of_mem hp)
      simp [this]
    · simp

theorem get?_delete (d : Dict κ ν) (k k' : κ) :
    (d.delete k).get? k' = if k' = k then none else d.get? k' := by
  rw [delete, get?_filter]
  by_cases h : k' = k
  · cases hd : d.get? k' <;> simp [h, Option.filter]
  · cases hd : d.get? k' <;> simp [h, Option.filter]

@[simp] theorem get?_delete_self (d : Dict κ ν) (k : κ) : (d.delete k).get? k = none := by
  simp [get?_delete]

theorem get?_delete_ne (d : Dict κ ν) {k k' : κ} (h : k' ≠ k) :
    (d.delete k).get? k' = d.get? k' := by
  simp [get?_delete, h]

theorem entries_delete_first {d : Dict κ ν} {k : κ} {v : ν} {rest : List (κ × ν)}
    (h : d.entries = (k, v) :: rest) : (d.delete k).entries = rest := by
  have nodup := d.nodup
  rw [h, List.map_cons, List.nodup_cons] at nodup
  simp only [delete, filter, h]
  rw [List.filter_cons_of_neg (by simp), List.filter_eq_self]
  intro p hp
  rw [decide_eq_true_eq]
  rintro rfl
  exact nodup.1 (List.mem_map.mpr ⟨p, hp, rfl⟩)

theorem delete_set (d : Dict κ ν) (k : κ) (v : ν) : (d.set k v).delete k = d.delete k := by
  apply entries_inj.mp
  simp only [delete, filter]
  by_cases hk : k ∈ d.keys
  · rw [entries_set_present hk, List.filter_map]
    conv_rhs => rw [← List.map_id (List.filter _ d.entries)]
    have kept : ∀ p : κ × ν, (if p.1 = k then (k, v) else p).1 = p.1 := by
      intro p
      by_cases h : p.1 = k <;> simp [h]
    have same : ((fun e : κ × ν => decide (e.1 ≠ k)) ∘ fun p => if p.1 = k then (k, v) else p) =
        fun e => decide (e.1 ≠ k) := by
      funext p
      simp only [Function.comp_apply, kept]
    rw [same]
    apply List.map_congr_left
    intro p hp
    have : p.1 ≠ k := by simpa using (List.mem_filter.mp hp).2
    simp [this]
  · rw [entries_set_absent hk, List.filter_append]
    simp

theorem has_set (d : Dict κ ν) (k k' : κ) (v : ν) :
    (d.set k v).has k' = (decide (k' = k) || d.has k') := by
  by_cases h : k' = k <;> simp [has, get?_set, h]

theorem has_delete (d : Dict κ ν) (k k' : κ) :
    (d.delete k).has k' = (decide (k' ≠ k) && d.has k') := by
  by_cases h : k' = k <;> simp [has, get?_delete, h]

theorem mem_keys_iff_has {d : Dict κ ν} {k : κ} : k ∈ d.keys ↔ d.has k = true := by
  rw [mem_keys, has_iff]

theorem length_keys (d : Dict κ ν) : d.keys.length = d.size := List.length_map ..

theorem size_set_le (d : Dict κ ν) (k : κ) (v : ν) : (d.set k v).size ≤ d.size + 1 := by
  by_cases h : k ∈ d.keys
  · rw [size, entries_set_present h, List.length_map]
    exact Nat.le_succ _
  · rw [size, entries_set_absent h, List.length_append]
    exact Nat.le_refl _

theorem size_delete_le (d : Dict κ ν) (k : κ) : (d.delete k).size ≤ d.size :=
  List.length_filter_le ..

theorem size_delete_lt {d : Dict κ ν} {k : κ} (h : k ∈ d.keys) : (d.delete k).size < d.size := by
  apply lt_of_le_of_ne (size_delete_le d k)
  intro same
  have all : ∀ e ∈ d.entries, decide (e.1 ≠ k) = true :=
    List.length_filter_eq_length_iff.mp same
  obtain ⟨v, hv⟩ := mem_keys.mp h
  simpa using all (k, v) (get?_eq_some.mp hv)

theorem size_le_one {d : Dict κ ν} (k : κ) (h : ∀ k' ∈ d.keys, k' = k) : d.size ≤ 1 := by
  have nodup : d.keys.Nodup := d.nodup
  rw [List.eq_replicate_of_mem h, length_keys, List.nodup_replicate] at nodup
  exact nodup

theorem size_eq_zero {d : Dict κ ν} : d.size = 0 ↔ ∀ k, d.get? k = none := by
  constructor
  · intro h k
    rw [size, List.length_eq_zero_iff] at h
    simp [get?, h]
  · intro h
    rw [size, List.length_eq_zero_iff]
    by_contra hne
    obtain ⟨p, hp⟩ := List.exists_mem_of_ne_nil _ hne
    have := get?_eq_some.mpr (show (p.1, p.2) ∈ d.entries from hp)
    rw [h] at this
    cases this

/-! ## Keys below a bound -/

section Below

variable {ν : Type} {d : Dict Nat ν} {n : Nat}

/-- A map over `0 … n - 1` is full by count exactly if it has every key. -/
theorem le_size_iff (h : ∀ k ∈ d.keys, k < n) : n ≤ d.size ↔ ∀ k < n, k ∈ d.keys := by
  have card : d.keys.toFinset.card = d.size := by
    have nodup : d.keys.Nodup := d.nodup
    rw [List.toFinset_card_of_nodup nodup, keys, List.length_map, size]
  constructor
  · intro full k hk
    have sub : d.keys.toFinset ⊆ Finset.range n := by
      intro k hk
      exact Finset.mem_range.mpr (h k (List.mem_toFinset.mp hk))
    have same := Finset.eq_of_subset_of_card_le sub (by rwa [Finset.card_range, card])
    exact List.mem_toFinset.mp (same ▸ Finset.mem_range.mpr hk)
  · intro all
    have sub : Finset.range n ⊆ d.keys.toFinset := by
      intro k hk
      exact List.mem_toFinset.mpr (all k (Finset.mem_range.mp hk))
    have := Finset.card_le_card sub
    rwa [Finset.card_range, card] at this

end Below

end Dict

end LemonModel
