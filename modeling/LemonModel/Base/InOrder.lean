import LemonModel.Base.Dict

/-!
# Numbered values in order

Values that are numbered from zero come in any order; one that is not next waits
until it is. Handing on a value may stop the loop (`stops`, by its number); the rest then
waits for the next arrival.
-/

namespace LemonModel

/-- What was handed on, and what waits. -/
structure InOrder (α : Type) where
  next : Nat
  pending : Dict Nat α
  out : List α

namespace InOrder

variable {α : Type}

def start : InOrder α := ⟨0, .empty, []⟩

/-- Hand on what is next as long as it is there. -/
def drain (stops : Nat → Bool) : Nat → InOrder α → InOrder α
  | 0, r => r
  | fuel + 1, r =>
    match r.pending.get? r.next with
    | none => r
    | some a =>
      let r' := ⟨r.next + 1, r.pending.delete r.next, r.out ++ [a]⟩
      if stops r.next then r' else drain stops fuel r'

/-- A value comes. -/
def accept (stops : Nat → Bool) (r : InOrder α) (i : Nat) (a : α) : InOrder α :=
  let r := { r with pending := r.pending.set i a }
  drain stops r.pending.size r

/-- Of `xs` those numbered in `got` came, and the waiting ones are not due. -/
structure Waits (xs : List α) (got : List Nat) (r : InOrder α) : Prop where
  out : r.out = xs.take r.next
  bound : r.next ≤ xs.length
  known : ∀ i ∈ got, i < xs.length
  before : ∀ i < r.next, i ∈ got
  pending : ∀ i a, r.pending.get? i = some a ↔ i ∈ got ∧ r.next ≤ i ∧ xs[i]? = some a

variable {xs : List α} {got : List Nat} {r : InOrder α} {stops : Nat → Bool}

theorem Waits.handOn (h : Waits xs got r) {a : α} (ha : r.pending.get? r.next = some a) :
    Waits xs got ⟨r.next + 1, r.pending.delete r.next, r.out ++ [a]⟩ := by
  obtain ⟨came, -, at_⟩ := (h.pending r.next a).mp ha
  have lt : r.next < xs.length := (List.getElem?_eq_some_iff.mp at_).1
  refine ⟨?_, lt, h.known, fun i hi => ?_, fun i b => ?_⟩
  · show r.out ++ [a] = xs.take (r.next + 1)
    rw [h.out, List.take_add_one, at_]
    rfl
  · rcases Nat.lt_succ_iff_lt_or_eq.mp hi with lt | rfl
    · exact h.before i lt
    · exact came
  · show (r.pending.delete r.next).get? i = some b ↔ _
    rw [Dict.get?_delete]
    by_cases same : i = r.next
    · subst same
      simp
    · rw [if_neg same, h.pending]
      constructor
      · rintro ⟨hi, le, hb⟩
        exact ⟨hi, by show r.next + 1 ≤ i; omega, hb⟩
      · rintro ⟨hi, le, hb⟩
        exact ⟨hi, by change r.next + 1 ≤ i at le; omega, hb⟩

theorem Waits.next_not_come (h : Waits xs got r) (none : r.pending.get? r.next = none) :
    r.next ∉ got := by
  intro came
  have waits := (h.pending r.next _).mpr
    ⟨came, Nat.le_refl _, List.getElem?_eq_getElem (h.known _ came)⟩
  rw [none] at waits
  cases waits

/-- With nothing to stop it, the loop ends where the next value did not come. -/
theorem Waits.drain (h : Waits xs got r) (never : ∀ i, stops i = false) {fuel : Nat}
    (enough : r.pending.size ≤ fuel) :
    Waits xs got (r.drain stops fuel) ∧ (r.drain stops fuel).next ∉ got := by
  induction fuel generalizing r with
  | zero => exact ⟨h, h.next_not_come (Dict.size_eq_zero.mp (Nat.le_zero.mp enough) _)⟩
  | succ fuel ih =>
    unfold InOrder.drain
    split
    · rename_i none
      exact ⟨h, h.next_not_come none⟩
    · rename_i a ha
      simp only [never]
      refine ih (h.handOn ha) ?_
      have := Dict.size_delete_lt (Dict.mem_keys.mpr ⟨a, ha⟩)
      show (r.pending.delete r.next).size ≤ fuel
      omega

theorem Waits.accept (h : Waits xs got r) (never : ∀ i, stops i = false) {i : Nat} {a : α}
    (isNew : i ∉ got) (ha : xs[i]? = some a) :
    Waits xs (i :: got) (r.accept stops i a) ∧ (r.accept stops i a).next ∉ i :: got := by
  have due : r.next ≤ i := by
    by_contra lt
    exact isNew (h.before i (by omega))
  have stored : Waits xs (i :: got) { r with pending := r.pending.set i a } := by
    refine ⟨h.out, h.bound, fun k hk => ?_, fun k hk => List.mem_cons_of_mem _ (h.before k hk),
      fun k b => ?_⟩
    · rcases List.mem_cons.mp hk with rfl | hk
      · exact (List.getElem?_eq_some_iff.mp ha).1
      · exact h.known k hk
    · show (r.pending.set i a).get? k = some b ↔ _
      rw [Dict.get?_set, List.mem_cons]
      by_cases same : k = i
      · subst same
        rw [if_pos rfl, ha]
        simp [due]
      · rw [if_neg same, h.pending]
        simp [same]
  exact stored.drain never (Nat.le_refl _)

theorem waits_start (xs : List α) : Waits xs [] start :=
  ⟨rfl, Nat.zero_le _, fun _ h => (nomatch h), fun _ h => (nomatch h), fun _ _ =>
    ⟨fun h => (nomatch h), fun h => (nomatch h.1)⟩⟩

/-- What waits for its turn after a list of arrivals. -/
theorem waits_foldl (never : ∀ i, stops i = false) {ins : List (Nat × α)} (got : List Nat)
    (r : InOrder α) (h : Waits xs got r) (new : r.next ∉ got)
    (distinct : (got ++ ins.map Prod.fst).Nodup) (own : ∀ p ∈ ins, xs[p.1]? = some p.2) :
    ∃ got', (∀ i, i ∈ got' ↔ i ∈ got ∨ i ∈ ins.map Prod.fst) ∧
      Waits xs got' (ins.foldl (fun r p => r.accept stops p.1 p.2) r) ∧
      (ins.foldl (fun r p => r.accept stops p.1 p.2) r).next ∉ got' := by
  induction ins generalizing got r with
  | nil => exact ⟨got, fun i => by simp, h, new⟩
  | cons p ins ih =>
    have apart : p.1 ∉ got := fun hp =>
      (List.nodup_append.mp distinct).2.2 p.1 hp p.1 (List.mem_cons_self ..) rfl
    obtain ⟨h', new'⟩ := h.accept never apart (own p (List.mem_cons_self ..))
    have distinct' : ((p.1 :: got) ++ ins.map Prod.fst).Nodup :=
      List.nodup_middle.mp distinct
    obtain ⟨got', mem, waits⟩ := ih (p.1 :: got) _ h' new' distinct'
      fun q hq => own q (List.mem_cons_of_mem _ hq)
    refine ⟨got', fun i => ?_, waits⟩
    rw [mem, List.map_cons, List.mem_cons, List.mem_cons]
    tauto

/-- **In order.** If nothing stops the loop, what came out is `xs` up to the first number
that did not come, whatever the order of the others. -/
theorem out_prefix (never : ∀ i, stops i = false) {ins : List (Nat × α)}
    (distinct : (ins.map Prod.fst).Nodup) (own : ∀ p ∈ ins, xs[p.1]? = some p.2) :
    ∃ n, (ins.foldl (fun r p => r.accept stops p.1 p.2) start).out = xs.take n ∧
      (∀ i < n, i ∈ ins.map Prod.fst) ∧ n ∉ ins.map Prod.fst := by
  obtain ⟨got, mem, h, new⟩ := waits_foldl never [] start (waits_start xs) List.not_mem_nil
    distinct own
  simp only [List.not_mem_nil, false_or] at mem
  exact ⟨_, h.out, fun i hi => (mem i).mp (h.before i hi), fun came => new ((mem _).mpr came)⟩

/-! ## When something stops the loop -/

/-- Every number up to this one came. -/
def Contiguous (came : Nat → Option α) (i : Nat) : Prop := ∀ k ≤ i, came k ≠ none

/-- What came was handed on up to the next number, and the rest of it waits. -/
structure Gathered (came : Nat → Option α) (r : InOrder α) : Prop where
  out : r.out.map some = (List.range r.next).map came
  pending : ∀ i, r.pending.get? i = if i < r.next then none else came i

variable {came : Nat → Option α}

theorem gathered_start : Gathered (fun _ => (none : Option α)) start := by
  refine ⟨rfl, fun i => ?_⟩
  rw [ite_self]
  rfl

theorem Gathered.contiguous (h : Gathered came r) {i : Nat} (before : i < r.next) :
    Contiguous came i := by
  intro k le none_
  have mem : came k ∈ r.out.map some := by
    rw [h.out]
    exact List.mem_map_of_mem (List.mem_range.mpr (by omega))
  rw [none_] at mem
  simp at mem

/-- The numbers handed on are the contiguous ones, if the next one did not come. -/
theorem Gathered.contiguous_iff (h : Gathered came r) (done : came r.next = none) {i : Nat} :
    Contiguous came i ↔ i < r.next := by
  constructor
  · intro whole
    by_contra behind
    exact whole r.next (by omega) done
  · exact h.contiguous

theorem Gathered.handOn (h : Gathered came r) {a : α} (ha : r.pending.get? r.next = some a) :
    Gathered came ⟨r.next + 1, r.pending.delete r.next, r.out ++ [a]⟩ := by
  rw [h.pending, if_neg (Nat.lt_irrefl _)] at ha
  constructor
  · rw [List.map_append, h.out, List.range_succ, List.map_append, List.map_singleton,
      List.map_singleton, ha]
  · intro i
    show (r.pending.delete r.next).get? i = if i < r.next + 1 then none else came i
    rw [Dict.get?_delete, h.pending]
    by_cases same : i = r.next
    · rw [if_pos same, if_pos (by omega)]
    · rw [if_neg same]
      by_cases before : i < r.next
      · rw [if_pos before, if_pos (by omega)]
      · rw [if_neg before, if_neg (by omega)]

theorem Gathered.length (h : Gathered came r) : r.out.length = r.next := by
  have lengths := congrArg List.length h.out
  rwa [List.length_map, List.length_map, List.length_range] at lengths

/-- The loop hands on a part of what is due, and ends where the next number did not come,
with nothing that stops it, exactly if nothing that is due stops it. -/
theorem Gathered.drain (h : Gathered came r) {fuel : Nat} (enough : r.pending.size ≤ fuel) :
    Gathered came (r.drain stops fuel) ∧ (∃ new, (r.drain stops fuel).out = r.out ++ new) ∧
      ((came (r.drain stops fuel).next = none ∧
          ∀ i, r.next ≤ i → i < (r.drain stops fuel).next → stops i = false) ↔
        ∀ i, Contiguous came i → r.next ≤ i → stops i = false) := by
  induction fuel generalizing r with
  | zero =>
    have done : came r.next = none := by
      have empty := Dict.size_eq_zero.mp (Nat.le_zero.mp enough) r.next
      rwa [h.pending, if_neg (Nat.lt_irrefl _)] at empty
    refine ⟨h, ⟨[], (List.append_nil _).symm⟩, iff_of_true ⟨done, fun i le lt => ?_⟩ ?_⟩
    · exact absurd lt (Nat.not_lt_of_le le)
    · exact fun i whole le => absurd done (whole r.next le)
  | succ fuel ih =>
    unfold InOrder.drain
    split
    · rename_i none_
      rw [h.pending, if_neg (Nat.lt_irrefl _)] at none_
      refine ⟨h, ⟨[], (List.append_nil _).symm⟩, iff_of_true ⟨none_, fun i le lt => ?_⟩ ?_⟩
      · exact absurd lt (Nat.not_lt_of_le le)
      · exact fun i whole le => absurd none_ (whole r.next le)
    · rename_i a ha
      have came_a : came r.next = some a := by
        rwa [h.pending, if_neg (Nat.lt_irrefl _)] at ha
      have whole : Contiguous came r.next := by
        intro k le
        rcases Nat.lt_or_eq_of_le le with before | rfl
        · exact h.contiguous before k le_rfl
        · rw [came_a]
          exact Option.some_ne_none a
      cases stopped : stops r.next with
      | true =>
        rw [if_pos rfl]
        refine ⟨h.handOn ha, ⟨[a], rfl⟩, iff_of_false ?_ ?_⟩
        · rintro ⟨-, quiet⟩
          rw [quiet r.next le_rfl (Nat.lt_succ_self _)] at stopped
          cases stopped
        · intro quiet
          rw [quiet r.next whole le_rfl] at stopped
          cases stopped
      | false =>
        have fewer : (r.pending.delete r.next).size ≤ fuel := by
          have := Dict.size_delete_lt (Dict.mem_keys.mpr ⟨a, ha⟩)
          omega
        obtain ⟨kept, ⟨new, out⟩, exactly⟩ := ih (h.handOn ha) fewer
        simp only [Bool.false_eq_true, if_false]
        refine ⟨kept, ⟨a :: new, ?_⟩, ?_⟩
        · rw [out, List.append_assoc]
          rfl
        have later : (∀ i, r.next + 1 ≤ i → i < (InOrder.drain stops fuel
              ⟨r.next + 1, r.pending.delete r.next, r.out ++ [a]⟩).next → stops i = false) ↔
            ∀ i, r.next ≤ i → i < (InOrder.drain stops fuel
              ⟨r.next + 1, r.pending.delete r.next, r.out ++ [a]⟩).next → stops i = false := by
          refine ⟨fun quiet i le lt => ?_, fun quiet i le lt => quiet i (by omega) lt⟩
          rcases Nat.lt_or_eq_of_le le with behind | rfl
          · exact quiet i behind lt
          · exact stopped
        rw [← later]
        refine exactly.trans ⟨fun quiet i whole' le => ?_, fun quiet i whole' le => ?_⟩
        · rcases Nat.lt_or_eq_of_le le with behind | rfl
          · exact quiet i whole' behind
          · exact stopped
        · exact quiet i whole' (by change r.next + 1 ≤ i at le; omega)

/-- A new number comes. -/
theorem Gathered.accept (stops : Nat → Bool) (h : Gathered came r) {i : Nat}
    (isNew : came i = none) (a : α) :
    Gathered (Function.update came i (some a)) (r.accept stops i a) ∧
      (∃ new, (r.accept stops i a).out = r.out ++ new) ∧
      ((Function.update came i (some a) (r.accept stops i a).next = none ∧
          ∀ k, r.next ≤ k → k < (r.accept stops i a).next → stops k = false) ↔
        ∀ k, Contiguous (Function.update came i (some a)) k → r.next ≤ k → stops k = false) := by
  have due : r.next ≤ i := by
    by_contra before
    exact h.contiguous (Nat.lt_of_not_le before) i le_rfl isNew
  have stored : Gathered (Function.update came i (some a)) { r with pending := r.pending.set i a } := by
    constructor
    · show r.out.map some = (List.range r.next).map (Function.update came i (some a))
      rw [h.out]
      apply List.map_congr_left
      intro k hk
      rw [Function.update_of_ne]
      rintro rfl
      have := List.mem_range.mp hk
      omega
    · intro k
      show (r.pending.set i a).get? k = if k < r.next then none else Function.update came i (some a) k
      rw [Dict.get?_set]
      by_cases same : k = i
      · subst same
        rw [if_pos rfl, if_neg (by omega), Function.update_self]
      · rw [if_neg same, Function.update_of_ne same, h.pending]
  exact stored.drain le_rfl

end InOrder

end LemonModel
