import LemonModel.Text.Bytes
import LemonModel.Transport.Split

/-!
# Cutting a string

What `splitStringByBytes` returns: runs of whole characters, each within the limit.
-/

namespace LemonModel

open Text

/-! ## Where it throws -/

theorem splitLoop_fits {chunkBytes : Int} {cs : List JSString}
    (fits : ∀ char ∈ cs, (byteLength char : Int) ≤ chunkBytes) (parts : List JSString)
    (buffer : JSString) (bytes : Nat) : (splitLoop chunkBytes cs parts buffer bytes).isSome := by
  induction cs generalizing parts buffer bytes with
  | nil => rfl
  | cons char cs ih =>
    have rest := fun c hc => fits c (List.mem_cons_of_mem _ hc)
    have small : ¬ (byteLength char : Int) > chunkBytes := not_lt.mpr (fits char List.mem_cons_self)
    rw [splitLoop, if_neg small]
    split
    · exact ih rest _ _ _
    · exact ih rest _ _ _

theorem splitStringByBytes_fits {value : JSString} {chunkBytes : Int} (pos : 0 < chunkBytes)
    (fits : ∀ char ∈ chars value, (byteLength char : Int) ≤ chunkBytes) :
    (splitStringByBytes value chunkBytes).isSome := by
  rw [splitStringByBytes, if_neg (not_le.mpr pos)]
  exact splitLoop_fits fits [] [] 0

/-! ## The parts -/

theorem eq_nil_of_flatten {cs : List JSString} (whole : ∀ char ∈ cs, char ≠ [])
    (empty : cs.flatten = []) : cs = [] := by
  rw [List.flatten_eq_nil_iff] at empty
  exact List.eq_nil_iff_forall_not_mem.mpr fun char mem => whole char mem (empty char mem)

/-- The parts still to come are runs of the characters held and left. -/
theorem splitLoop_groups {chunkBytes : Int} {cs held parts out : List JSString}
    (whole : ∀ char ∈ held ++ cs, char ≠ [])
    (small : ((held.map byteLength).sum : Int) ≤ chunkBytes)
    (h : splitLoop chunkBytes cs parts held.flatten (held.map byteLength).sum = some out) :
    ∃ groups : List (List JSString), out = parts ++ groups.map List.flatten ∧
      groups.flatten = held ++ cs ∧
      ∀ group ∈ groups, ((group.map byteLength).sum : Int) ≤ chunkBytes ∧
        (group = [] → held ++ cs = []) := by
  have of_empty : held.flatten = [] → held = [] :=
    eq_nil_of_flatten fun char mem => whole char (List.mem_append_left _ mem)
  induction cs generalizing held parts with
  | nil =>
    simp only [splitLoop, Option.some.injEq] at h
    subst h
    split
    · exact ⟨[held], rfl, by simp, by simpa using small⟩
    · rename_i spent
      rw [not_or, not_not] at spent
      exact ⟨[], by simp, by simp [of_empty spent.1], by simp⟩
  | cons char cs ih =>
    simp only [splitLoop] at h
    split at h
    · cases h
    · rename_i fits
      rw [not_lt] at fits
      split at h
      · -- the buffer becomes a part, and the character starts the next one
        rename_i full
        have rest : ∀ c ∈ [char] ++ cs, c ≠ [] :=
          fun c mem => whole c (List.mem_append_right _ mem)
        obtain ⟨groups, rfl, joined, bounds⟩ :=
          ih rest (by simpa using fits) (by simpa using h) (by simp [whole char (by simp)])
        refine ⟨held :: groups, by simp, by simp [joined], fun group mem => ?_⟩
        rcases List.mem_cons.mp mem with rfl | mem
        · refine ⟨small, fun empty => absurd ?_ full.1⟩
          rw [empty]
          rfl
        · obtain ⟨bound, filled⟩ := bounds group mem
          exact ⟨bound, fun empty => absurd (filled empty) (by simp)⟩
      · rename_i room
        have rest : ∀ c ∈ (held ++ [char]) ++ cs, c ≠ [] := by simpa using whole
        have longer : (((held ++ [char]).map byteLength).sum : Int) ≤ chunkBytes := by
          rw [not_and_or, not_not, not_lt] at room
          rcases room with empty | room
          · simpa [of_empty empty] using fits
          · simpa using room
        obtain ⟨groups, same, joined, bounds⟩ :=
          ih rest longer (by simpa using h) (by simp [whole char (by simp)])
        refine ⟨groups, same, by simpa using joined, fun group mem => ?_⟩
        obtain ⟨bound, filled⟩ := bounds group mem
        exact ⟨bound, fun empty => absurd (filled empty) (by simp)⟩

/-- A part within the limit, made of whole characters. -/
theorem splitStringByBytes_groups {value : JSString} {chunkBytes : Int} {parts : List JSString}
    (h : splitStringByBytes value chunkBytes = some parts) :
    ∃ groups : List (List JSString), parts = groups.map List.flatten ∧
      groups.flatten = chars value ∧
      ∀ group ∈ groups, ((group.map byteLength).sum : Int) ≤ chunkBytes ∧
        (group = [] → value = []) := by
  unfold splitStringByBytes at h
  split at h
  · cases h
  · rename_i pos
    have nothing_held : (((([] : List JSString).map byteLength).sum : Nat) : Int) ≤ chunkBytes :=
      le_of_not_ge pos
    obtain ⟨groups, same, joined, bounds⟩ :=
      splitLoop_groups (chars_ne_nil value) nothing_held h
    refine ⟨groups, same, joined, fun group mem => ⟨(bounds group mem).1, fun empty => ?_⟩⟩
    have none_left : chars value = [] := (bounds group mem).2 empty
    rw [← chars_flatten value, none_left, List.flatten_nil]

/-- The characters of a part are those it was made of. -/
theorem chars_part {value : JSString} {groups : List (List JSString)} {group : List JSString}
    (joined : groups.flatten = chars value) (mem : group ∈ groups) :
    chars group.flatten = group := by
  obtain ⟨before, after, rfl⟩ := List.append_of_mem mem
  rw [List.flatten_append, List.flatten_cons] at joined
  have rest := (chars_cut joined.symm).2
  exact (chars_cut rest).1

/-- Where every character fits, a string is cut into parts within the limit, which
concatenate to it and add up to its bytes; no pair is cut, and no part of a string is empty
unless the string is. -/
theorem splitStringByBytes_exact (value : JSString) (chunkBytes : Int) (pos : 0 < chunkBytes)
    (fits : ∀ char ∈ chars value, (byteLength char : Int) ≤ chunkBytes) :
    ∃ parts, splitStringByBytes value chunkBytes = some parts ∧ parts ≠ [] ∧
      parts.flatten = value ∧
      (∀ part ∈ parts, (byteLength part : Int) ≤ chunkBytes) ∧
      (parts.map byteLength).sum = byteLength value ∧
      (∀ before after u v, parts = before ++ after → before.flatten.getLast? = some u →
        after.flatten.head? = some v → ¬ (isHigh u = true ∧ isLow v = true)) ∧
      ([] ∈ parts → value = []) := by
  obtain ⟨parts, cut⟩ := Option.isSome_iff_exists.mp (splitStringByBytes_fits pos fits)
  obtain ⟨groups, rfl, joined, bounds⟩ := splitStringByBytes_groups cut
  have bytes : ∀ group ∈ groups, byteLength group.flatten = (group.map byteLength).sum := by
    intro group mem
    rw [byteLength_eq_sum, chars_part joined mem]
  refine ⟨_, cut, splitStringByBytes_ne_nil cut, splitStringByBytes_flatten cut, ?_, ?_, ?_, ?_⟩
  · intro part mem
    obtain ⟨group, own, rfl⟩ := List.mem_map.mp mem
    rw [bytes group own]
    exact (bounds group own).1
  · rw [byteLength_eq_sum value, ← joined, List.map_map, List.map_flatten, List.sum_flatten,
      List.map_map]
    exact congrArg List.sum (List.map_congr_left bytes)
  · rintro before after u v same last first ⟨high, low⟩
    obtain ⟨front, back, rfl, rfl, rfl⟩ := List.map_eq_append_iff.mp same
    rw [List.flatten_append] at joined
    rw [← List.flatten_flatten] at last first
    have whole := no_pair_cut joined.symm last first
    rw [high, low] at whole
    cases whole
  · intro mem
    obtain ⟨group, own, empty⟩ := List.mem_map.mp mem
    have none_in : group = [] := by
      rw [← chars_part joined own, empty]
      rfl
    exact (bounds group own).2 none_in

/-- A pair, an ASCII letter and half a pair, in parts of four bytes. -/
theorem splitStringByBytes_exact_smile :
    ∃ parts, splitStringByBytes [0xD83D, 0xDE00, 0x61, 0xD800] 4 = some parts ∧
      parts.flatten = [0xD83D, 0xDE00, 0x61, 0xD800] ∧ (parts.map byteLength).sum = 8 := by
  obtain ⟨parts, cut, -, joined, -, sizes, -⟩ :=
    splitStringByBytes_exact [0xD83D, 0xDE00, 0x61, 0xD800] 4 (by decide) (by decide)
  exact ⟨parts, cut, joined, sizes⟩

/-- The empty string has no character that would not fit, but no limit below one is taken. -/
theorem splitStringByBytes_no_limit :
    ¬ ∀ (value : JSString) (chunkBytes : Int),
      (∀ char ∈ chars value, (byteLength char : Int) ≤ chunkBytes) →
        (splitStringByBytes value chunkBytes).isSome := by
  intro claimed
  have thrown := claimed [] 0 (by decide)
  revert thrown
  decide

end LemonModel
