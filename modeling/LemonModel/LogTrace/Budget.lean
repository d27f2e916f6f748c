import LemonModel.LogTrace.Truncation

/-!
# The budget of a batch

The counter of a reporter is one byte short of the batch, and an entry that opens a batch
is not counted against it. `batches_within` says which calls keep a batch in its budget.
-/

namespace LemonModel

open Text

namespace LogTraceReporter

variable {r r' : LogTraceReporter} {throws : Nat → Bool} {e : Event × (Nat → Bool)}
  {es : List (Event × (Nat → Bool))} {call : Call} {entry : Entry} {bytes : Nat}

/-! ## Sizes -/

/-- What the counter counts. -/
def counted (entries : List Entry) : Nat := (entries.map fun entry => entry.size + 1).sum

theorem batchBytes_eq {entries : List Entry} (some_ : entries ≠ []) :
    batchBytes entries = counted entries + 1 := by
  have documents : entries.map Entry.document ≠ [] := by simpa using some_
  rw [batchBytes, byteLength_arr documents, List.map_map]
  rfl

theorem size_truncated (e : Entry) (whole : e.truncated = false) :
    e.size ≤ ({ e with truncated := true } : Entry).size := by
  have longer : ({ e with truncated := true } : Entry).members =
      e.members ++ [(lit "truncated", .bool true)] := by
    simp [Entry.members, whole]
  rw [Entry.size, Entry.size, Entry.document, Entry.document, longer]
  exact byteLength_obj_append (List.cons_ne_nil _ _) _ _

/-- The entry that is left when everything is dropped. -/
def Call.least (call : Call) (seq : Nat) : Entry := ⟨call.level, call.now, [], none, seq, true⟩

/-- A batch of it is within the budget. -/
def Ample (r : LogTraceReporter) (e : Event × (Nat → Bool)) : Prop :=
  match e.1 with
  | .log call => r.passes call = true →
    (batchBytes [call.least (r.seqNo + 1)] : ℚ) ≤ r.maxBatchBytes
  | _ => True

/-- The bytes that are counted for an entry are its own. -/
theorem record_exact {maxBatchBytes : ℚ} {seq : Nat}
    (ample : (batchBytes [call.least seq] : ℚ) ≤ maxBatchBytes) :
    (call.record maxBatchBytes seq).2 = (call.record maxBatchBytes seq).1.size := by
  unfold Call.record
  dsimp only
  split
  · rename_i large
    apply truncate_exact large
    -- an entry with nothing to drop is within an ample budget
    by_contra bare
    rw [not_or, not_not] at bare
    have json : call.json = none := Option.not_isSome_iff_eq_none.mp bare.1
    have empty : call.message = [] := bare.2
    have same : ({ call.entry seq with truncated := true } : Entry) = call.least seq := by
      rw [Call.entry, empty, json]
      rfl
    have le := size_truncated (call.entry seq) rfl
    rw [same] at le
    rw [batchBytes_eq (List.cons_ne_nil _ _), counted, List.map_singleton,
      List.sum_singleton] at ample
    push_cast at ample
    have le' : ((call.entry seq).size : ℚ) ≤ (call.least seq).size := by exact_mod_cast le
    linarith
  · rfl

/-! ## Steps -/

/-- The counter is right. -/
def Counts (r : LogTraceReporter) : Prop := r.bufferBytes = counted r.buffer

/-- Every batch, and what will be one, is within the budget. -/
structure Within (r : LogTraceReporter) : Prop where
  sent : ∀ m ∈ r.sent, (batchBytes m.entries : ℚ) ≤ r.maxBatchBytes
  buffer : r.buffer ≠ [] → (batchBytes r.buffer : ℚ) ≤ r.maxBatchBytes

/-- The entry of a call leaves room for the brackets of its batch. -/
def Roomy (r : LogTraceReporter) (e : Event × (Nat → Bool)) : Prop :=
  match e.1 with
  | .log call =>
    r.passes call = true → (call.entry 0).printable = true →
      let bytes := (call.record r.maxBatchBytes (r.seqNo + 1)).2
      (((if r.overruns bytes then 0 else r.bufferBytes) + bytes + 2 : Nat) : ℚ) ≤ r.maxBatchBytes
  | _ => True

theorem counts_flush (h : r.Counts) (throws : Nat → Bool) : (r.flush throws).Counts := by
  have flushed := r.flushed throws
  unfold Counts
  rw [flushed.buffer]
  by_cases waits : r.buffer = []
  · have none_ : r.buffer.isEmpty = true := by simp [waits]
    rw [flush]
    simp only [none_, if_true]
    rw [h, waits]
  · exact flushed.bufferBytes waits

theorem within_flush (throws : Nat → Bool) (r : LogTraceReporter) :
    (r.flush throws).Within ↔ r.Within := by
  by_cases waits : r.buffer = []
  · have none_ : r.buffer.isEmpty = true := by simp [waits]
    rw [flush]
    simp only [none_, if_true]
    exact ⟨fun h => ⟨h.sent, h.buffer⟩, fun h => ⟨h.sent, h.buffer⟩⟩
  · have some_ : r.buffer.isEmpty = false := by simpa using waits
    rw [flush]
    simp only [some_, Bool.false_eq_true, if_false]
    constructor
    · intro h
      refine ⟨fun m hm => h.sent m (List.mem_append_left _ hm), fun _ => ?_⟩
      exact h.sent ⟨r.type, r.buffer, r.source, r.midNo + 1⟩ (by simp)
    · intro h
      refine ⟨fun m hm => ?_, fun h => absurd rfl h⟩
      rw [List.mem_append, List.mem_singleton] at hm
      rcases hm with hm | rfl
      · exact h.sent m hm
      · exact h.buffer waits

theorem counts_push (h : r.Counts) (exact_ : bytes = entry.size) : (r.push entry bytes).Counts := by
  unfold Counts counted at *
  simp [push, h, exact_]
  omega

theorem within_push (h : r.Counts) (exact_ : bytes = entry.size) :
    (r.push entry bytes).Within ↔
      r.Within ∧ ((r.bufferBytes + bytes + 2 : Nat) : ℚ) ≤ r.maxBatchBytes := by
  have some_ : (r.push entry bytes).buffer ≠ [] := by simp [push]
  have length : batchBytes (r.push entry bytes).buffer = r.bufferBytes + bytes + 2 := by
    rw [batchBytes_eq some_, ← (counts_push h exact_ : _ = _)]
    rfl
  constructor
  · intro within
    have fits := within.buffer some_
    rw [length] at fits
    refine ⟨⟨within.sent, fun waits => ?_⟩, fits⟩
    rw [batchBytes_eq waits, ← (h : _ = _)]
    refine le_trans ?_ fits
    exact_mod_cast (by omega : r.bufferBytes + 1 ≤ r.bufferBytes + bytes + 2)
  · rintro ⟨within, fits⟩
    refine ⟨within.sent, fun _ => ?_⟩
    rw [length]
    exact fits

theorem trigger_within (throws : Nat → Bool) (h : r.Counts) (level : LogTraceLevel) :
    (r.trigger throws level).Counts ∧ ((r.trigger throws level).Within ↔ r.Within) := by
  unfold trigger
  split
  · exact ⟨counts_flush h throws, within_flush throws r⟩
  · split
    · exact ⟨h, Iff.rfl⟩
    · split
      · exact ⟨h, ⟨fun w => ⟨w.sent, w.buffer⟩, fun w => ⟨w.sent, w.buffer⟩⟩⟩
      · exact ⟨counts_flush h throws, within_flush throws r⟩

/-- **One entry.** -/
theorem add_within (throws : Nat → Bool) (h : r.Counts) (exact_ : bytes = entry.size) :
    (r.add throws entry bytes).Counts ∧ ((r.add throws entry bytes).Within ↔ r.Within ∧
      (((if r.overruns bytes then 0 else r.bufferBytes) + bytes + 2 : Nat) : ℚ) ≤
        r.maxBatchBytes) := by
  unfold add
  cases full : r.overruns bytes with
  | true =>
    have waits : r.buffer ≠ [] := by
      intro empty
      simp [overruns, empty] at full
    have emptied := counts_flush h throws
    obtain ⟨counts, within⟩ :=
      trigger_within throws (counts_push emptied exact_) entry.level
    refine ⟨counts, within.trans ((within_push emptied exact_).trans ?_)⟩
    rw [within_flush, (r.flushed throws).bufferBytes waits,
      (r.flushed throws).configured.maxBatchBytes]
    simp
  | false =>
    obtain ⟨counts, within⟩ := trigger_within throws (counts_push h exact_) entry.level
    refine ⟨counts, within.trans ((within_push h exact_).trans ?_)⟩
    simp

/-- **One event.** It stays within the budget exactly if a call that it records is roomy. -/
theorem step_within (h : r.Counts) (ample : Ample r e) (hstep : r.step e = some r') :
    r'.Counts ∧ (r'.Within ↔ r.Within ∧ Roomy r e) := by
  obtain ⟨e, throws⟩ := e
  have still : ∀ r' : LogTraceReporter, (r'.Within ↔ r.Within) → (r'.Within ↔ r.Within ∧ True) :=
    fun _ same => same.trans (and_iff_left trivial).symm
  cases e with
  | log call =>
    obtain rfl : (r.log throws call).1 = r' := Option.some.inj hstep
    cases open_ : r.passes call with
    | false =>
      rw [log_gated open_]
      refine ⟨h, (and_iff_left_of_imp fun _ => ?_).symm⟩
      intro passes
      rw [open_] at passes
      cases passes
    | true =>
      cases printable : (call.entry 0).printable with
      | false =>
        rw [log_throws open_ printable]
        refine ⟨h, Iff.trans ⟨fun w => ⟨w.sent, w.buffer⟩, fun w => ⟨w.sent, w.buffer⟩⟩
          (and_iff_left_of_imp fun _ => ?_).symm⟩
        intro _ good
        rw [printable] at good
        cases good
      | true =>
        obtain ⟨errors, logged⟩ := log_adds throws open_ printable
        rw [logged]
        have counts : ({ r with seqNo := r.seqNo + 1, errors := errors } : LogTraceReporter).Counts := h
        obtain ⟨counts', within⟩ := add_within throws counts (record_exact (ample open_))
        refine ⟨counts', within.trans ?_⟩
        constructor
        · rintro ⟨w, fits⟩
          exact ⟨⟨w.sent, w.buffer⟩, fun _ _ => fits⟩
        · rintro ⟨w, roomy⟩
          exact ⟨⟨w.sent, w.buffer⟩, roomy open_ printable⟩
  | flush =>
    obtain rfl : r.flush throws = r' := Option.some.inj hstep
    exact ⟨counts_flush h throws, still _ (within_flush throws r)⟩
  | close =>
    obtain rfl : r.close throws = r' := Option.some.inj hstep
    refine ⟨counts_flush h throws, still _ (Iff.trans ?_ (within_flush throws r))⟩
    exact ⟨fun w => ⟨w.sent, w.buffer⟩, fun w => ⟨w.sent, w.buffer⟩⟩
  | timer =>
    obtain rfl := step_timer hstep
    exact ⟨counts_flush h throws, still _ (within_flush throws r)⟩
  | reject i =>
    obtain ⟨m, -, rfl⟩ := step_reject hstep
    exact ⟨h, still _ ⟨fun w => ⟨w.sent, w.buffer⟩, fun w => ⟨w.sent, w.buffer⟩⟩⟩

/-! ## Runs -/

theorem run_within (run : Run step Ample r es r') (h : r.Counts) :
    r'.Within ↔ r.Within ∧ Run step Roomy r es r' := by
  induction run with
  | nil r => exact ⟨fun w => ⟨w, .nil r⟩, And.left⟩
  | @cons r r₁ r' e es ample hstep _ ih =>
    obtain ⟨counts, within⟩ := step_within h ample hstep
    rw [ih counts, within, and_assoc]
    refine and_congr_right fun _ => ⟨fun ⟨roomy, rest⟩ => .cons roomy hstep rest, fun run => ?_⟩
    cases run with
    | cons roomy hstep' rest =>
      obtain rfl := Option.some.inj (hstep.symm.trans hstep')
      exact ⟨roomy, rest⟩

/-- **When batches are within their budget.** The budget has room for one truncated entry
without a message. Every batch is within it if every entry leaves two bytes, for the
brackets, beside what the counter counts; and, once nothing waits any more, only then. -/
theorem batches_within {options : LogTraceReporterOptions} {source : JSString}
    (run : Run step Ample (create options source) es r) :
    (Run step Roomy (create options source) es r →
        ∀ m ∈ r.sent, (batchBytes m.entries : ℚ) ≤ r.maxBatchBytes) ∧
      (r.buffer = [] → (∀ m ∈ r.sent, (batchBytes m.entries : ℚ) ≤ r.maxBatchBytes) →
        Run step Roomy (create options source) es r) := by
  have start : (create options source).Within := ⟨fun m hm => (nomatch hm), fun h => absurd rfl h⟩
  have whole := run_within run rfl
  constructor
  · intro roomy
    exact (whole.mpr ⟨start, roomy⟩).sent
  · intro done sent
    exact (whole.mp ⟨sent, fun waits => absurd done waits⟩).2

/-! Two entries that share a batch as long as the budget, and one entry as long as it. -/

instance (r : LogTraceReporter) (e : Event × (Nat → Bool)) : Decidable (Ample r e) := by
  rcases e with ⟨⟨⟩, throws⟩ <;> dsimp only [Ample] <;> infer_instance

instance (r : LogTraceReporter) (e : Event × (Nat → Bool)) : Decidable (Roomy r e) := by
  rcases e with ⟨⟨⟩, throws⟩ <;> dsimp only [Roomy] <;> infer_instance

def tight (maxBatchBytes : ℚ) : LogTraceReporterOptions :=
  { LogTraceReporterOptions.default with maxBatchBytes := some maxBatchBytes }

/-- The first is flushed at once. -/
def threeNotes : List (Event × (Nat → Bool)) :=
  [.log ⟨0, .info, lit "a", none⟩, .log ⟨0, .info, lit "b", none⟩,
    .log ⟨0, .info, lit "c", none⟩, .flush].map (·, fun _ => false)

theorem batches_within_note :
    ∃ r, exec step (create (tight 93) (lit "s")) threeNotes = some r ∧
      r.sent.map (fun m => (m.entries.length, batchBytes m.entries)) = [(1, 47), (2, 93)] ∧
      ∀ m ∈ r.sent, (batchBytes m.entries : ℚ) ≤ r.maxBatchBytes := by
  obtain ⟨r, ample⟩ := Run.of_allGood step Ample (create (tight 93) (lit "s")) threeNotes
    (by decide +kernel)
  obtain ⟨r', roomy⟩ := Run.of_allGood step Roomy (create (tight 93) (lit "s")) threeNotes
    (by decide +kernel)
  obtain rfl := Option.some.inj (ample.exec_eq.symm.trans roomy.exec_eq)
  exact ⟨r, ample.exec_eq, ample.read (a := [(1, 47), (2, 93)])
    (f := fun r => r.sent.map fun m => (m.entries.length, batchBytes m.entries)) (by decide +kernel),
    (batches_within ample).1 roomy⟩

def longNote : Event × (Nat → Bool) :=
  (.log ⟨0, .info, lit "a message that is longer than a flag", none⟩, fun _ => false)

/-- The batch has two bytes more than its budget. -/
theorem batch_exceeds_budget :
    ¬ ∀ (max : ℚ) (es : List (Event × (Nat → Bool))) (r : LogTraceReporter),
      Run step Ample (create (tight max) (lit "s")) es r →
        ∀ m ∈ r.sent, (batchBytes m.entries : ℚ) ≤ max := by
  intro within
  obtain ⟨r, run⟩ := Run.of_allGood step Ample (create (tight 80) (lit "s")) [longNote]
    (by decide +kernel)
  have sent : ((exec step (create (tight 80) (lit "s")) [longNote]).map fun r =>
      r.sent.map fun m => batchBytes m.entries) = some [82] := by decide +kernel
  rw [run.exec_eq, Option.map_some, Option.some.injEq] at sent
  have long : 82 ∈ r.sent.map fun m => batchBytes m.entries := by
    rw [sent]
    exact List.mem_singleton.mpr rfl
  obtain ⟨m, hm, bytes⟩ := List.mem_map.mp long
  have small := within 80 [longNote] r run m hm
  rw [bytes] at small
  norm_num at small

end LogTraceReporter

end LemonModel
