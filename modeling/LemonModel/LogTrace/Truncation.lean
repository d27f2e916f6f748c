import LemonModel.LogTrace.Batches

/-!
# Truncation

The loop of `truncate` takes units of the message by a count of bytes. The bytes of the entry
may grow on the way (half a pair is longer, escaped, than the pair was), the message only gets
shorter.
-/

namespace LemonModel

open Text

namespace LogTraceReporter

variable {maxBatchBytes : ℚ} {p : Entry × Nat} {e : Entry} {bytes fuel : Nat}

/-! ## The loop -/

/-- The condition of the loop. -/
def Goes (maxBatchBytes : ℚ) (p : Entry × Nat) : Prop :=
  maxBatchBytes < (p.2 : ℚ) ∧ p.1.message ≠ []

/-- One pass of the loop. -/
def pass (maxBatchBytes : ℚ) (p : Entry × Nat) : Entry × Nat :=
  let length := max 0 (p.1.message.length - (p.2 - maxBatchBytes))
  let e := { p.1 with message := p.1.message.take ⌊length⌋.toNat }
  (e, e.size)

theorem cut_goes (goes : Goes maxBatchBytes p) (fuel : Nat) :
    cut maxBatchBytes (fuel + 1) p = cut maxBatchBytes fuel (pass maxBatchBytes p) := by
  have stops : ¬ ((p.2 : ℚ) ≤ maxBatchBytes ∨ p.1.message = []) :=
    not_or.mpr ⟨not_le.mpr goes.1, goes.2⟩
  rw [cut, if_neg stops]
  rfl

theorem cut_stopped (stopped : ¬ Goes maxBatchBytes p) (fuel : Nat) :
    cut maxBatchBytes fuel p = p := by
  cases fuel with
  | zero => rfl
  | succ fuel =>
    have stops : (p.2 : ℚ) ≤ maxBatchBytes ∨ p.1.message = [] := by
      by_contra on
      rw [not_or, not_le] at on
      exact stopped on
    rw [cut, if_pos stops]

/-- At least one unit goes, however little the entry is too long. -/
theorem pass_shorter (goes : Goes maxBatchBytes p) :
    (pass maxBatchBytes p).1.message.length < p.1.message.length := by
  have pos : 0 < (p.1.message.length : ℚ) := by
    exact_mod_cast List.length_pos_of_ne_nil goes.2
  have less : max 0 ((p.1.message.length : ℚ) - (p.2 - maxBatchBytes)) < p.1.message.length := by
    apply max_lt pos
    linarith [goes.1]
  have below : ⌊max 0 ((p.1.message.length : ℚ) - (p.2 - maxBatchBytes))⌋ <
      (p.1.message.length : ℤ) := by
    rw [Int.floor_lt]
    exact_mod_cast less
  have natural : 0 ≤ ⌊max 0 ((p.1.message.length : ℚ) - (p.2 - maxBatchBytes))⌋ :=
    Int.floor_nonneg.mpr (le_max_left _ _)
  simp only [pass, List.length_take]
  omega

theorem not_goes_of_short (short : p.1.message.length ≤ 0) : ¬ Goes maxBatchBytes p :=
  fun goes => goes.2 (List.length_eq_zero_iff.mp (Nat.le_zero.mp short))

/-- **The loop ends** in no more passes than the message has units. -/
theorem cut_ends (enough : p.1.message.length ≤ fuel) :
    ¬ Goes maxBatchBytes (cut maxBatchBytes fuel p) := by
  induction fuel generalizing p with
  | zero => exact not_goes_of_short enough
  | succ fuel ih =>
    by_cases goes : Goes maxBatchBytes p
    · rw [cut_goes goes]
      have shorter := pass_shorter goes
      exact ih (by omega)
    · rwa [cut_stopped goes]

/-- More passes than that change nothing. -/
theorem cut_fuel {fuel' : Nat} (enough : p.1.message.length ≤ fuel)
    (enough' : p.1.message.length ≤ fuel') :
    cut maxBatchBytes fuel p = cut maxBatchBytes fuel' p := by
  induction fuel generalizing p fuel' with
  | zero =>
    have stopped : ¬ Goes maxBatchBytes p := not_goes_of_short enough
    rw [cut_stopped stopped, cut_stopped stopped]
  | succ fuel ih =>
    by_cases goes : Goes maxBatchBytes p
    · have shorter := pass_shorter goes
      cases fuel' with
      | zero => exact absurd goes (not_goes_of_short enough')
      | succ fuel' =>
        rw [cut_goes goes, cut_goes goes]
        exact ih (by omega) (by omega)
    · rw [cut_stopped goes, cut_stopped goes]

/-- The loop changes nothing but the message. -/
theorem cut_message (fuel : Nat) (p : Entry × Nat) :
    (cut maxBatchBytes fuel p).1 =
      { p.1 with message := (cut maxBatchBytes fuel p).1.message } := by
  induction fuel generalizing p with
  | zero => rfl
  | succ fuel ih =>
    by_cases goes : Goes maxBatchBytes p
    · rw [cut_goes goes]
      exact ih (pass maxBatchBytes p)
    · rw [cut_stopped goes]

/-- Once the bytes are those of the entry they stay so. -/
theorem cut_exact (fuel : Nat) (exact_ : p.2 = p.1.size) :
    (cut maxBatchBytes fuel p).2 = (cut maxBatchBytes fuel p).1.size := by
  induction fuel generalizing p with
  | zero => exact exact_
  | succ fuel ih =>
    by_cases goes : Goes maxBatchBytes p
    · rw [cut_goes goes]
      exact ih rfl
    · rw [cut_stopped goes]
      exact exact_

/-! ## An entry beyond the budget -/

/-- The bytes that are counted were counted again, unless nothing was dropped. -/
theorem truncate_exact (oversize : maxBatchBytes < (bytes : ℚ))
    (more : e.json.isSome ∨ e.message ≠ []) :
    (truncate maxBatchBytes e bytes).2 = (truncate maxBatchBytes e bytes).1.size := by
  unfold truncate
  dsimp only
  split
  · exact cut_exact _ rfl
  · rename_i plain
    have some_ : e.message ≠ [] := more.resolve_left plain
    have goes : Goes maxBatchBytes ({ e with truncated := true }, bytes) := ⟨oversize, some_⟩
    obtain ⟨n, length⟩ := Nat.exists_eq_succ_of_ne_zero (List.length_pos_of_ne_nil some_).ne'
    rw [length, cut_goes goes]
    exact cut_exact _ rfl

theorem truncate_message (maxBatchBytes : ℚ) (e : Entry) (bytes : Nat) :
    (truncate maxBatchBytes e bytes).1 =
      ⟨e.level, e.ts, (truncate maxBatchBytes e bytes).1.message, none, e.seq, true⟩ := by
  unfold truncate
  dsimp only
  split
  · rw [cut_message]
  · rename_i plain
    have json : e.json = none := Option.not_isSome_iff_eq_none.mp plain
    rw [cut_message]
    simp only [json]

theorem truncate_ends (maxBatchBytes : ℚ) (e : Entry) (bytes : Nat) :
    ¬ Goes maxBatchBytes (truncate maxBatchBytes e bytes) := by
  unfold truncate
  dsimp only
  apply cut_ends
  split
  · exact le_rfl
  · exact le_rfl

/-- The loop of `truncate` ends for every entry, and an entry beyond the budget is left within
it or without a message; what is left is the entry without its `json` and with the beginning
of its message, and its bytes are counted right if it had anything to drop. -/
theorem truncate_converges (maxBatchBytes : ℚ) (e : Entry)
    (oversize : maxBatchBytes < (e.size : ℚ)) :
    (∀ p fuel, p.1.message.length ≤ fuel →
      ¬ Goes maxBatchBytes (cut maxBatchBytes fuel p) ∧
      cut maxBatchBytes fuel p = cut maxBatchBytes p.1.message.length p) ∧
    (((truncate maxBatchBytes e e.size).1.size : ℚ) ≤ maxBatchBytes ∨
      (truncate maxBatchBytes e e.size).1.message = []) ∧
    (truncate maxBatchBytes e e.size).1.message <+: e.message ∧
    (truncate maxBatchBytes e e.size).1 =
      ⟨e.level, e.ts, (truncate maxBatchBytes e e.size).1.message, none, e.seq, true⟩ ∧
    (e.json.isSome ∨ e.message ≠ [] →
      (truncate maxBatchBytes e e.size).2 = (truncate maxBatchBytes e e.size).1.size) := by
  have isPrefix := (shortened_truncate maxBatchBytes e e.size).message
  refine ⟨fun p fuel enough => ⟨cut_ends enough, cut_fuel enough le_rfl⟩, ?_, isPrefix,
    truncate_message _ _ _, truncate_exact oversize⟩
  by_cases more : e.json.isSome ∨ e.message ≠ []
  · rw [← truncate_exact oversize more]
    by_contra on
    rw [not_or, not_le] at on
    exact truncate_ends _ _ _ on
  · rw [not_or, not_not] at more
    rw [more.2] at isPrefix
    exact .inr (List.prefix_nil.mp isPrefix)

/-- A message that takes more bytes once the pair it ends in is cut in half. -/
def smiling : Entry :=
  ⟨.info, 0, lit "a message that ends in a smile " ++ [0xD83D, 0xDE00], none, 1, false⟩

theorem truncate_converges_smiling :
    (((truncate 78 smiling smiling.size).1.size : ℚ) ≤ 78 ∨
      (truncate 78 smiling smiling.size).1.message = []) ∧
    (truncate 78 smiling smiling.size).1.message <+: smiling.message ∧
    (truncate 78 smiling smiling.size).2 = (truncate 78 smiling smiling.size).1.size := by
  obtain ⟨-, within, start, -, counted⟩ := truncate_converges 78 smiling (by decide +kernel)
  exact ⟨within, start, counted (.inr (by decide))⟩

end LogTraceReporter

end LemonModel
