import Mathlib.Data.List.Sort

/-!
# The greatest elements of a list

The greatest elements of what has come so far, in order and with the later of two equal
ones behind: they are kept by inserting what comes where a binary search says, and
dropping the first element when there are too many.
-/

namespace LemonModel

/-! ## Binary search -/

/-- The first index in `lo..hi` that `goesRight` does not hold of. -/
def bisect (goesRight : Nat → Bool) : Nat → Nat → Nat → Nat
  | 0, lo, _ => lo
  | fuel + 1, lo, hi =>
    if lo < hi then
      if goesRight ((lo + hi) / 2) then bisect goesRight fuel ((lo + hi) / 2 + 1) hi
      else bisect goesRight fuel lo ((lo + hi) / 2)
    else lo

theorem bisect_eq {goesRight : Nat → Bool} {b fuel lo hi : Nat} (low : lo ≤ b) (high : b ≤ hi)
    (enough : hi ≤ lo + fuel) (split : ∀ i < hi, goesRight i = true ↔ i < b) :
    bisect goesRight fuel lo hi = b := by
  induction fuel generalizing lo hi with
  | zero =>
    rw [bisect]
    omega
  | succ fuel ih =>
    rw [bisect]
    by_cases more : lo < hi
    · have here := split ((lo + hi) / 2) (by omega)
      rw [if_pos more]
      by_cases right : goesRight ((lo + hi) / 2) = true
      · have lt := here.mp right
        rw [if_pos right]
        apply ih (by omega) high (by omega) split
      · have le : ¬ (lo + hi) / 2 < b := fun lt => right (here.mpr lt)
        rw [if_neg right]
        apply ih low (by omega) (by omega) fun i hi' => split i (by omega)
    · rw [if_neg more]
      omega

/-! ## Inserting behind what is not greater -/

variable {α : Type} (r : α → α → Prop) [DecidableRel r]

def insertBehind (e : α) : List α → List α
  | [] => [e]
  | x :: s => if r x e then x :: insertBehind e s else e :: x :: s

/-- How many elements stand before what is inserted. -/
def rank (e : α) (s : List α) : Nat := (s.takeWhile fun x => r x e).length

variable {r} {a e : α} {s l : List α}

theorem insertBehind_eq (e : α) (s : List α) :
    insertBehind r e s = s.take (rank r e s) ++ e :: s.drop (rank r e s) := by
  induction s with
  | nil => rfl
  | cons x s ih =>
    unfold insertBehind rank
    by_cases le : r x e
    · rw [if_pos le, List.takeWhile_cons_of_pos (by simpa using le), List.length_cons,
        List.take_succ_cons, List.drop_succ_cons, List.cons_append]
      exact congrArg (x :: ·) ih
    · rw [if_neg le, List.takeWhile_cons_of_neg (by simpa using le)]
      rfl

theorem length_insertBehind (e : α) (s : List α) : (insertBehind r e s).length = s.length + 1 := by
  rw [insertBehind_eq, List.length_append, List.length_cons, List.length_drop, List.length_take]
  have le : rank r e s ≤ s.length := (List.takeWhile_sublist _).length_le
  omega

theorem insertBehind_last (h : ∀ x ∈ l, r x e) (s : List α) :
    insertBehind r e (l ++ s) = l ++ insertBehind r e s := by
  induction l with
  | nil => rfl
  | cons x l ih =>
    obtain ⟨le, rest⟩ := List.forall_mem_cons.mp h
    rw [List.cons_append, insertBehind, if_pos le, ih rest, List.cons_append]

theorem insertBehind_within (h : ∃ x ∈ l, ¬ r x e) (s : List α) :
    insertBehind r e (l ++ s) = insertBehind r e l ++ s := by
  induction l with
  | nil => simp at h
  | cons x l ih =>
    rw [List.cons_append, insertBehind, insertBehind]
    by_cases le : r x e
    · rw [if_pos le, if_pos le, List.cons_append, ih]
      obtain ⟨y, mem, not⟩ := h
      rcases List.mem_cons.mp mem with rfl | mem
      · exact absurd le not
      · exact ⟨y, mem, not⟩
    · rw [if_neg le, if_neg le]
      rfl

section Ordered

variable [IsTrans α r]

/-- In a sorted list the elements that are not greater come first. -/
theorem lt_rank_iff (sorted : s.Pairwise r) (e : α) {i : Nat} (hi : i < s.length) :
    r s[i] e ↔ i < rank r e s := by
  induction s generalizing i with
  | nil => simp at hi
  | cons x s ih =>
    obtain ⟨first, sorted⟩ := List.pairwise_cons.mp sorted
    unfold rank
    by_cases le : r x e
    · rw [List.takeWhile_cons_of_pos (by simpa using le), List.length_cons]
      cases i with
      | zero => simp [le]
      | succ i =>
        rw [List.getElem_cons_succ, ih sorted (by simpa using hi), Nat.succ_lt_succ_iff, rank]
    · rw [List.takeWhile_cons_of_neg (by simpa using le)]
      cases i with
      | zero => simp [le]
      | succ i =>
        have lt : i < s.length := by simpa using hi
        have up : r x s[i] := first _ (List.getElem_mem lt)
        simp only [List.getElem_cons_succ, List.length_nil, Nat.not_lt_zero, iff_false]
        exact fun down => le (trans_of r up down)

theorem bisect_rank (sorted : s.Pairwise r) (e : α) {goesRight : Nat → Bool}
    (h : ∀ i (hi : i < s.length), goesRight i = true ↔ r s[i] e) :
    bisect goesRight s.length 0 s.length = rank r e s := by
  apply bisect_eq (Nat.zero_le _) (List.takeWhile_sublist _).length_le (by omega)
  intro i hi
  exact (h i hi).trans (lt_rank_iff sorted e hi)

variable [Std.Total r]

/-- What comes first and what comes last may be inserted in either order. -/
theorem insertBehind_orderedInsert (a e : α) (s : List α) :
    insertBehind r e (s.orderedInsert r a) = (insertBehind r e s).orderedInsert r a := by
  induction s with
  | nil =>
    simp only [List.orderedInsert_nil, insertBehind]
    by_cases le : r a e
    · rw [if_pos le, List.orderedInsert_cons_of_le _ _ le]
    · rw [if_neg le, List.orderedInsert_of_not_le _ _ le, List.orderedInsert_nil]
  | cons x s ih =>
    by_cases before : r a x
    · rw [List.orderedInsert_cons_of_le _ _ before]
      by_cases le : r x e
      · rw [insertBehind, if_pos (trans_of r before le), insertBehind, if_pos le,
          List.orderedInsert_cons_of_le _ _ before]
      · by_cases first : r a e
        · rw [insertBehind, if_pos first, insertBehind, if_neg le,
            List.orderedInsert_cons_of_le _ _ first]
        · rw [insertBehind, if_neg first, insertBehind, if_neg le,
            List.orderedInsert_of_not_le _ _ first, List.orderedInsert_cons_of_le _ _ before]
    · rw [List.orderedInsert_of_not_le _ _ before]
      by_cases le : r x e
      · rw [insertBehind, if_pos le, insertBehind, if_pos le,
          List.orderedInsert_of_not_le _ _ before, ih]
      · have first : ¬ r a e := fun h =>
          le (trans_of r ((total_of r x a).resolve_right before) h)
        rw [insertBehind, if_neg le, insertBehind, if_neg le,
          List.orderedInsert_of_not_le _ _ first, List.orderedInsert_of_not_le _ _ before]

/-- Sorting what has come, and then one more. -/
theorem insertionSort_append (l : List α) (e : α) :
    (l ++ [e]).insertionSort r = insertBehind r e (l.insertionSort r) := by
  induction l with
  | nil => rfl
  | cons a l ih =>
    rw [List.cons_append, List.insertionSort_cons, ih, List.insertionSort_cons,
      insertBehind_orderedInsert]

end Ordered

/-! ## The last ones -/

/-- The greatest `n` elements, from the least to the greatest. -/
def greatest (r : α → α → Prop) [DecidableRel r] (n : Nat) (l : List α) : List α :=
  (l.insertionSort r).drop (l.length - n)

@[simp] theorem greatest_nil (n : Nat) : greatest r n ([] : List α) = [] := List.drop_nil

theorem length_greatest (n : Nat) (l : List α) : (greatest r n l).length = min n l.length := by
  rw [greatest, List.length_drop, List.length_insertionSort]
  omega

section Ordered

variable [IsTrans α r] [Std.Total r]

theorem pairwise_greatest (n : Nat) (l : List α) : (greatest r n l).Pairwise r :=
  (List.pairwise_insertionSort r l).sublist (List.drop_sublist _ _)

/-- One more comes, and the first one goes when there are too many. -/
theorem greatest_append (n : Nat) (l : List α) (e : α) :
    greatest r n (l ++ [e]) =
      (insertBehind r e (greatest r n l)).drop (min n l.length + 1 - n) := by
  have sorted := List.pairwise_insertionSort r l
  have whole := List.take_append_drop (l.length - n) (l.insertionSort r)
  unfold greatest
  rw [insertionSort_append, List.length_append, List.length_singleton]
  by_cases few : l.length ≤ n
  · rw [Nat.sub_eq_zero_of_le few, List.drop_zero, Nat.min_eq_right few]
  · have split : l.length + 1 - n = (l.length - n) + 1 := by omega
    have size : ((l.insertionSort r).take (l.length - n)).length = l.length - n := by
      rw [List.length_take, List.length_insertionSort]
      omega
    rw [split, Nat.min_eq_left (by omega), Nat.add_sub_cancel_left]
    nth_rewrite 1 [← whole]
    by_cases behind : ∀ x ∈ (l.insertionSort r).take (l.length - n), r x e
    · rw [insertBehind_last behind, ← List.drop_drop, List.drop_left' size]
    · -- it is among those that are not kept
      push Not at behind
      obtain ⟨x, mem, not⟩ := behind
      rw [insertBehind_within ⟨x, mem, not⟩, List.drop_left' (by rw [length_insertBehind, size])]
      rw [← whole] at sorted
      have up := (List.pairwise_append.mp sorted).2.2
      cases kept : (l.insertionSort r).drop (l.length - n) with
      | nil => rfl
      | cons y rest =>
        have above : ¬ r y e := fun h => not (trans_of r (up x mem y (by simp [kept])) h)
        rw [insertBehind, if_neg above, List.drop_succ_cons, List.drop_zero]

/-- What is left out is not greater than anything that is kept, of which there are `n`. -/
theorem greatest_spec {x : α} (n : Nat) (h : x ∈ l) :
    x ∈ greatest r n l ∨ (greatest r n l).length = n ∧ ∀ y ∈ greatest r n l, r x y := by
  have sorted := List.pairwise_insertionSort r l
  have mem : x ∈ l.insertionSort r := (List.mem_insertionSort r).mpr h
  rw [length_greatest]
  unfold greatest
  rw [← List.take_append_drop (l.length - n) (l.insertionSort r)] at sorted mem
  rcases List.mem_append.mp mem with out | kept
  · refine .inr ⟨?_, (List.pairwise_append.mp sorted).2.2 x out⟩
    have some_ := List.length_pos_of_mem out
    rw [List.length_take] at some_
    omega
  · exact .inl kept

end Ordered

/-- The greatest elements are some of the list, each as often as there or less. -/
theorem greatest_subperm (n : Nat) (l : List α) : (greatest r n l).Subperm l :=
  (List.drop_sublist _ _).subperm.trans (List.perm_insertionSort r l).subperm

/-! ## The order of equal ones -/

theorem filter_orderedInsert (p : α → Bool) (alike : ∀ x y, p x = true → p y = true → r x y)
    (a : α) (s : List α) : (s.orderedInsert r a).filter p = (a :: s).filter p := by
  induction s with
  | nil => rfl
  | cons x s ih =>
    by_cases le : r a x
    · rw [List.orderedInsert_cons_of_le _ _ le]
    · have apart : p a = true → p x = false := fun ha => by
        cases hx : p x with
        | true => exact absurd (alike a x ha hx) le
        | false => rfl
      rw [List.orderedInsert_of_not_le _ _ le, List.filter_cons, ih]
      cases ha : p a with
      | true => simp [ha, apart ha]
      | false => simp [ha, List.filter_cons]

/-- Elements that are alike keep the order they came in. -/
theorem filter_insertionSort (p : α → Bool) (alike : ∀ x y, p x = true → p y = true → r x y)
    (l : List α) : (l.insertionSort r).filter p = l.filter p := by
  induction l with
  | nil => rfl
  | cons a l ih =>
    rw [List.insertionSort_cons, filter_orderedInsert p alike, List.filter_cons, ih,
      List.filter_cons]

theorem filter_greatest (p : α → Bool) (alike : ∀ x y, p x = true → p y = true → r x y)
    (n : Nat) (l : List α) : (greatest r n l).filter p <:+ l.filter p := by
  rw [← filter_insertionSort p alike l]
  exact (List.drop_suffix _ _).filter p

end LemonModel
