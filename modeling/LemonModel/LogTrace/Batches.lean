import LemonModel.LogTrace.Reporter

/-!
# What a log reporter sends

The batches and then the buffer are the entries past the gate, numbered from one, and a
timer runs exactly while something waits. A batch may be longer than its budget: the
counter takes a comma for each entry and forgets one bracket.
-/

namespace LemonModel

open Text

namespace LogTraceReporter

variable {r r' : LogTraceReporter} {throws : Nat → Bool} {e : Event × (Nat → Bool)}
  {es : List (Event × (Nat → Bool))} {call : Call} {entry : Entry} {bytes : Nat}

/-! ## What stays as it is -/

structure Configured (r r' : LogTraceReporter) : Prop where
  minLevel : r'.minLevel = r.minLevel
  flushIntervalMs : r'.flushIntervalMs = r.flushIntervalMs
  maxBatchBytes : r'.maxBatchBytes = r.maxBatchBytes
  type : r'.type = r.type
  source : r'.source = r.source

theorem Configured.refl (r : LogTraceReporter) : r.Configured r := ⟨rfl, rfl, rfl, rfl, rfl⟩

theorem Configured.trans {r'' : LogTraceReporter} (h : r.Configured r') (h' : r'.Configured r'') :
    r.Configured r'' :=
  ⟨h'.minLevel.trans h.minLevel, h'.flushIntervalMs.trans h.flushIntervalMs,
    h'.maxBatchBytes.trans h.maxBatchBytes, h'.type.trans h.type, h'.source.trans h.source⟩

/-- The entries that were handed to the sink, and then those that wait. -/
def entries (r : LogTraceReporter) : List Entry := r.sent.flatMap Message.entries ++ r.buffer

/-- What a flush does. -/
structure Flushed (r r' : LogTraceReporter) : Prop where
  configured : r.Configured r'
  entries : r'.entries = r.entries
  buffer : r'.buffer = []
  bufferBytes : r.buffer ≠ [] → r'.bufferBytes = 0
  timer : r'.timer = false
  seqNo : r'.seqNo = r.seqNo
  closed : r'.closed = r.closed

theorem flushed (throws : Nat → Bool) (r : LogTraceReporter) : r.Flushed (r.flush throws) := by
  unfold flush
  by_cases waits : r.buffer = []
  · have none_ : r.buffer.isEmpty = true := by simp [waits]
    simp only [none_, if_true]
    exact ⟨⟨rfl, rfl, rfl, rfl, rfl⟩, rfl, waits, fun h => absurd waits h,
      rfl, rfl, rfl⟩
  · have some_ : r.buffer.isEmpty = false := by simpa using waits
    simp only [some_, Bool.false_eq_true, if_false]
    refine ⟨⟨rfl, rfl, rfl, rfl, rfl⟩, ?_, rfl, fun _ => rfl, rfl, rfl, rfl⟩
    simp [LogTraceReporter.entries]

/-- The end of `log` flushes, or leaves the timer running. -/
theorem trigger_cases (throws : Nat → Bool) (r : LogTraceReporter) (level : LogTraceLevel) :
    r.Flushed (r.trigger throws level) ∨ level ≠ .error ∧
      (r.flushIntervalMs ≤ 0 ∧ r.trigger throws level = r ∨
        r.trigger throws level = { r with timer := true }) := by
  unfold trigger
  split
  · exact .inl (r.flushed throws)
  · rename_i few
    have low : level ≠ .error := fun h => few (.inl h)
    split
    · rename_i idle
      exact .inr ⟨low, .inl ⟨idle, rfl⟩⟩
    · split
      · exact .inr ⟨low, .inr rfl⟩
      · exact .inl (r.flushed throws)

/-! ## The buffer and its timer -/

/-- A timer runs only while something waits, and then always if there is an interval. -/
structure Timed (r : LogTraceReporter) : Prop where
  waits : r.timer = true → r.buffer ≠ []
  armed : 0 < r.flushIntervalMs → r.buffer ≠ [] → r.timer = true
  closed : r.closed = true → r.buffer = []

theorem Flushed.timed (h : r.Flushed r') : r'.Timed where
  waits timer := by
    rw [h.timer] at timer
    cases timer
  armed _ waits := absurd h.buffer waits
  closed _ := h.buffer

/-- What `log` does past the gate. -/
structure Added (entry : Entry) (r r' : LogTraceReporter) : Prop where
  configured : r.Configured r'
  entries : r'.entries = r.entries ++ [entry]
  timed : r.closed = false → r'.Timed
  seqNo : r'.seqNo = r.seqNo
  closed : r'.closed = r.closed
  urgent : entry.level = .error → r'.buffer = []

theorem added_push (throws : Nat → Bool) (r : LogTraceReporter) (entry : Entry) (bytes : Nat) :
    Added entry r ((r.push entry bytes).trigger throws entry.level) := by
  have pushed : (r.push entry bytes).entries = r.entries ++ [entry] := by
    simp [push, LogTraceReporter.entries]
  have some_ : (r.push entry bytes).buffer ≠ [] := by simp [push]
  rcases trigger_cases throws (r.push entry bytes) entry.level with h | ⟨low, ⟨idle, same⟩ | same⟩
  · exact ⟨⟨h.configured.minLevel, h.configured.flushIntervalMs, h.configured.maxBatchBytes,
      h.configured.type, h.configured.source⟩, h.entries.trans pushed, fun _ => h.timed, h.seqNo,
      h.closed, fun _ => h.buffer⟩
  · rw [same]
    refine ⟨⟨rfl, rfl, rfl, rfl, rfl⟩, pushed, fun open_ => ⟨fun _ => some_, fun pos => ?_, ?_⟩,
      rfl, rfl, fun error => absurd error low⟩
    · exact absurd pos (not_lt.mpr idle)
    · intro closed
      have still : r.closed = true := closed
      rw [open_] at still
      cases still
  · rw [same]
    refine ⟨⟨rfl, rfl, rfl, rfl, rfl⟩, pushed, fun open_ => ⟨fun _ => some_, fun _ _ => rfl, ?_⟩,
      rfl, rfl, fun error => absurd error low⟩
    intro closed
    have still : r.closed = true := closed
    rw [open_] at still
    cases still

theorem added (throws : Nat → Bool) (r : LogTraceReporter) (entry : Entry) (bytes : Nat) :
    Added entry r (r.add throws entry bytes) := by
  unfold add
  split
  · have first := r.flushed throws
    have then_ := added_push throws (r.flush throws) entry bytes
    refine ⟨first.configured.trans then_.configured, ?_, fun open_ => ?_,
      then_.seqNo.trans first.seqNo, then_.closed.trans first.closed, then_.urgent⟩
    · rw [then_.entries, first.entries]
    · apply then_.timed
      rw [first.closed]
      exact open_
  · exact added_push throws r entry bytes

/-! ## One event -/

/-- `JSON.stringify` does not throw on the `json` of a call that passes the gate. -/
def Serializable (r : LogTraceReporter) (e : Event × (Nat → Bool)) : Prop :=
  match e.1 with
  | .log call => r.passes call = true → (call.entry 0).printable = true
  | _ => True

theorem log_gated (closed : r.passes call = false) : r.log throws call = (r, false) := by
  rw [log, closed]
  rfl

theorem log_throws (open_ : r.passes call = true) (bad : (call.entry 0).printable = false) :
    r.log throws call = ({ r with seqNo := r.seqNo + 1 }, true) := by
  have bad' : (call.entry (r.seqNo + 1)).printable = false := bad
  simp only [log, open_, bad', Bool.not_true, Bool.not_false, Bool.false_eq_true, if_false, if_true]

/-- The entry is recorded, and an error of its truncation. -/
theorem log_adds (throws : Nat → Bool) (open_ : r.passes call = true)
    (printable : (call.entry 0).printable = true) :
    ∃ errors, r.log throws call =
      (({ r with seqNo := r.seqNo + 1, errors := errors } : LogTraceReporter).add throws
        (call.record r.maxBatchBytes (r.seqNo + 1)).1
        (call.record r.maxBatchBytes (r.seqNo + 1)).2, false) := by
  have good : (call.entry (r.seqNo + 1)).printable = true := printable
  simp only [log, open_, good, Bool.not_true, Bool.false_eq_true, if_false]
  split
  · exact ⟨_, rfl⟩
  · exact ⟨r.errors, rfl⟩

/-- The entries of these calls, from this number on. -/
def recorded (maxBatchBytes : ℚ) (seqNo : Nat) : List Call → List Entry
  | [] => []
  | call :: calls =>
    (call.record maxBatchBytes (seqNo + 1)).1 :: recorded maxBatchBytes (seqNo + 1) calls

/-- The call that an event has recorded, if it is one that passes the gate. -/
def counts (r : LogTraceReporter) : Event → List Call
  | .log call => if r.passes call then [call] else []
  | _ => []

/-- An event that leaves nothing waiting. -/
def Event.urgent : Event → Bool
  | .log call => call.level = .error
  | .close => true
  | _ => false

def Event.isClose : Event → Bool
  | .close => true
  | _ => false

/-- Truncation takes `json` and the end of the message. -/
structure Shortened (e e' : Entry) : Prop where
  level : e'.level = e.level
  ts : e'.ts = e.ts
  seq : e'.seq = e.seq
  message : e'.message <+: e.message
  printable : e.printable = true → e'.printable = true

theorem Shortened.refl (e : Entry) : Shortened e e := ⟨rfl, rfl, rfl, List.prefix_rfl, id⟩

theorem Shortened.trans {e e' e'' : Entry} (h : Shortened e e') (h' : Shortened e' e'') :
    Shortened e e'' :=
  ⟨h'.level.trans h.level, h'.ts.trans h.ts, h'.seq.trans h.seq, h'.message.trans h.message,
    h'.printable ∘ h.printable⟩

theorem shortened_cut (maxBatchBytes : ℚ) (fuel : Nat) (e : Entry) (bytes : Nat) :
    Shortened e (cut maxBatchBytes fuel (e, bytes)).1 := by
  induction fuel generalizing e bytes with
  | zero => exact .refl e
  | succ fuel ih =>
    rw [cut]
    split
    · exact .refl e
    · refine Shortened.trans ?_ (ih _ _)
      exact ⟨rfl, rfl, rfl, List.take_prefix .., id⟩

theorem shortened_truncate (maxBatchBytes : ℚ) (e : Entry) (bytes : Nat) :
    Shortened e (truncate maxBatchBytes e bytes).1 := by
  unfold truncate
  dsimp only
  split
  · refine Shortened.trans ?_ (shortened_cut _ _ _ _)
    exact ⟨rfl, rfl, rfl, List.prefix_rfl, fun _ => rfl⟩
  · refine Shortened.trans ?_ (shortened_cut _ _ _ _)
    exact ⟨rfl, rfl, rfl, List.prefix_rfl, id⟩

/-- What is recorded of a call. -/
theorem shortened_record (maxBatchBytes : ℚ) (call : Call) (seq : Nat) :
    Shortened (call.entry seq) (call.record maxBatchBytes seq).1 := by
  unfold Call.record
  dsimp only
  split
  · exact shortened_truncate _ _ _
  · exact .refl _

/-- What an event does when `json` can be printed. -/
structure Stepped (r r' : LogTraceReporter) (e : Event) : Prop where
  configured : r.Configured r'
  entries : r'.entries = r.entries ++ recorded r.maxBatchBytes r.seqNo (r.counts e)
  seqNo : r'.seqNo = r.seqNo + (r.counts e).length
  timed : r'.Timed
  closed : r'.closed = (r.closed || e.isClose)
  urgent : e.urgent = true → r'.buffer = []

theorem Flushed.stepped {e : Event} (h : r.Flushed r') (uncounted : r.counts e = [])
    (open_ : e.isClose = false) : Stepped r r' e where
  configured := h.configured
  entries := by rw [h.entries, uncounted, recorded, List.append_nil]
  seqNo := by rw [h.seqNo, uncounted, List.length_nil, Nat.add_zero]
  timed := h.timed
  closed := by rw [h.closed, open_, Bool.or_false]
  urgent _ := h.buffer

theorem stepped_log (timed : r.Timed) (serializable : Serializable r (.log call, throws)) :
    Stepped r (r.log throws call).1 (.log call) := by
  cases open_ : r.passes call with
  | false =>
    have uncounted : r.counts (.log call) = [] := if_neg (by simp [open_])
    rw [log_gated open_]
    refine ⟨.refl r, ?_, ?_, timed, (Bool.or_false _).symm, fun error => ?_⟩
    · rw [uncounted, recorded, List.append_nil]
    · rw [uncounted]
      rfl
    · apply timed.closed
      have level : call.level = .error := of_decide_eq_true error
      cases closed : r.closed with
      | true => rfl
      | false =>
        have most : r.minLevel.weight ≤ call.level.weight := by
          rw [level]
          cases r.minLevel <;> decide
        simp [passes, closed, most] at open_
  | true =>
    obtain ⟨errors, logged⟩ := log_adds throws open_ (serializable open_)
    have counted : r.counts (.log call) = [call] := if_pos open_
    have still : r.closed = false := by
      simp only [passes, Bool.and_eq_true, Bool.not_eq_true'] at open_
      exact open_.1
    have h := added throws ({ r with seqNo := r.seqNo + 1, errors := errors } : LogTraceReporter)
      (call.record r.maxBatchBytes (r.seqNo + 1)).1 (call.record r.maxBatchBytes (r.seqNo + 1)).2
    rw [logged]
    refine ⟨⟨h.configured.minLevel, h.configured.flushIntervalMs, h.configured.maxBatchBytes,
      h.configured.type, h.configured.source⟩, ?_, ?_, h.timed still, ?_, fun error => ?_⟩
    · rw [counted]
      exact h.entries
    · rw [counted]
      exact h.seqNo
    · rw [h.closed]
      exact (Bool.or_false _).symm
    · apply h.urgent
      rw [(shortened_record r.maxBatchBytes call (r.seqNo + 1)).level]
      exact of_decide_eq_true error

theorem stepped (timed : r.Timed) (serializable : Serializable r e) (hstep : r.step e = some r') :
    Stepped r r' e.1 := by
  obtain ⟨e, throws⟩ := e
  cases e with
  | log call =>
    obtain rfl : (r.log throws call).1 = r' := Option.some.inj hstep
    exact stepped_log timed serializable
  | flush =>
    obtain rfl : r.flush throws = r' := Option.some.inj hstep
    exact (r.flushed throws).stepped rfl rfl
  | close =>
    obtain rfl : r.close throws = r' := Option.some.inj hstep
    have h := r.flushed throws
    refine ⟨⟨h.configured.minLevel, h.configured.flushIntervalMs, h.configured.maxBatchBytes,
      h.configured.type, h.configured.source⟩, ?_, h.seqNo, ?_, (Bool.or_true _).symm,
      fun _ => h.buffer⟩
    · exact h.entries.trans (List.append_nil _).symm
    · exact ⟨h.timed.waits, h.timed.armed, fun _ => h.buffer⟩
  | timer =>
    obtain rfl := step_timer hstep
    exact (r.flushed throws).stepped rfl rfl
  | reject i =>
    obtain ⟨m, -, rfl⟩ := step_reject hstep
    exact ⟨⟨rfl, rfl, rfl, rfl, rfl⟩, (List.append_nil _).symm, rfl,
      ⟨timed.waits, timed.armed, timed.closed⟩, (Bool.or_false _).symm, fun urgent => nomatch urgent⟩

/-! ## Whole runs -/

/-- The calls past the gate, up to `close`. -/
def acceptedCalls (minLevel : LogTraceLevel) : List (Event × (Nat → Bool)) → List Call
  | [] => []
  | (.log call, _) :: es =>
    if minLevel.weight ≤ call.level.weight then call :: acceptedCalls minLevel es
    else acceptedCalls minLevel es
  | (.close, _) :: _ => []
  | _ :: es => acceptedCalls minLevel es

/-- **What a run records.** -/
theorem run_entries (run : Run step Serializable r es r') (timed : r.Timed) :
    r.Configured r' ∧ r'.Timed ∧ r'.entries = r.entries ++ (if r.closed then []
      else recorded r.maxBatchBytes r.seqNo (acceptedCalls r.minLevel es)) := by
  induction run with
  | nil r =>
    refine ⟨.refl r, timed, ?_⟩
    split <;> exact (List.append_nil _).symm
  | @cons r r₁ r' e es serializable hstep _ ih =>
    have h := stepped timed serializable hstep
    obtain ⟨configured, timed', entries⟩ := ih h.timed
    refine ⟨h.configured.trans configured, timed', ?_⟩
    rw [entries, h.entries, List.append_assoc, h.closed, h.configured.maxBatchBytes,
      h.configured.minLevel, h.seqNo]
    congr 1
    cases closed : r.closed with
    | true =>
      have uncounted : r.counts e.1 = [] := by
        unfold counts
        split
        · simp [passes, closed]
        · rfl
      rw [uncounted]
      rfl
    | false =>
      obtain ⟨e, throws⟩ := e
      cases e with
      | log call =>
        have gate : r.passes call = decide (r.minLevel.weight ≤ call.level.weight) := by
          rw [passes, closed]
          rfl
        simp only [counts, acceptedCalls, gate, decide_eq_true_eq, Event.isClose, Bool.or_false,
          Bool.false_eq_true, if_false]
        split
        · rfl
        · rfl
      | close => rfl
      | flush | timer | reject => rfl

theorem recorded_seq (maxBatchBytes : ℚ) (seqNo : Nat) (calls : List Call) :
    (recorded maxBatchBytes seqNo calls).map Entry.seq = List.range' (seqNo + 1) calls.length := by
  induction calls generalizing seqNo with
  | nil => rfl
  | cons call calls ih =>
    rw [recorded, List.map_cons, (shortened_record maxBatchBytes call (seqNo + 1)).seq, ih]
    rfl

theorem timed_create (options : LogTraceReporterOptions) (source : JSString) :
    (create options source).Timed :=
  ⟨fun timer => (nomatch timer), fun _ waits => absurd rfl waits, fun closed => (nomatch closed)⟩

/-- **Nothing is lost on the way to the sink.** The batches and then the buffer are what the
calls past the gate recorded, in order and numbered from one. A timer runs while something
waits and no longer, and nothing waits after an error or `close`. -/
theorem reporter_conserves {options : LogTraceReporterOptions} {source : JSString}
    (run : Run step Serializable (create options source) es r) :
    r.sent.flatMap Message.entries ++ r.buffer =
        recorded r.maxBatchBytes 0 (acceptedCalls (options.minLevel.getD .debug) es) ∧
      (r.sent.flatMap Message.entries ++ r.buffer).map Entry.seq =
        List.range' 1 (acceptedCalls (options.minLevel.getD .debug) es).length ∧
      (0 < r.flushIntervalMs → r.buffer ≠ [] → r.timer = true) ∧
      (r.timer = true → r.buffer ≠ []) ∧
      ∀ e, es.getLast? = some e → e.1.urgent = true → r.buffer = [] := by
  obtain ⟨configured, timed, entries⟩ := run_entries run (timed_create options source)
  have all : r.sent.flatMap Message.entries ++ r.buffer =
      recorded r.maxBatchBytes 0 (acceptedCalls (options.minLevel.getD .debug) es) := by
    rw [configured.maxBatchBytes]
    exact entries
  refine ⟨all, ?_, timed.armed, timed.waits, fun e last urgent => ?_⟩
  · rw [all, recorded_seq]
  · obtain ⟨before, rfl⟩ := List.getLast?_eq_some_iff.mp last
    obtain ⟨s, first, final⟩ := run.split
    obtain ⟨-, timed, -⟩ := run_entries first (timed_create options source)
    cases final with
    | cons serializable hstep rest =>
      cases rest
      exact (stepped timed serializable hstep).urgent urgent

/-! A first entry, one that waits, an error, and the end. -/

instance (r : LogTraceReporter) (e : Event × (Nat → Bool)) : Decidable (Serializable r e) := by
  unfold Serializable
  split <;> infer_instance

def note (level : LogTraceLevel) : Event × (Nat → Bool) :=
  (.log ⟨0, level, lit "hi", none⟩, fun _ => false)

theorem reporter_conserves_notes : ∃ r, exec step (create .default (lit "s"))
      [note .info, note .debug, note .error, (.close, fun _ => true)] = some r ∧
    (r.sent.flatMap Message.entries ++ r.buffer).map Entry.seq = [1, 2, 3] ∧ r.buffer = [] := by
  obtain ⟨r, run⟩ := Run.of_allGood step Serializable (create .default (lit "s"))
    [note .info, note .debug, note .error, (.close, fun _ => true)] (by decide +kernel)
  obtain ⟨-, numbers, -, -, last⟩ := reporter_conserves run
  exact ⟨r, run.exec_eq, numbers, last _ rfl rfl⟩

end LogTraceReporter

end LemonModel
