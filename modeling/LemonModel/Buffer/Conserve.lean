import LemonModel.Buffer.Stream

/-!
# Conservation of chunks

The chunks of the flush events, in order, and the queue are the accepted chunks, and
the counters are their sums (`buffer_conserves`). Only `flush` and `enqueue` touch
what this is about.
-/

namespace LemonModel

open Text

def Emission.flush? : Emission → Option GenAIStreamFlushEvent
  | .flush event => some event
  | _ => none

/-- A flush event has the data and the sizes of its chunks. -/
structure GenAIStreamFlushEvent.Sums (f : GenAIStreamFlushEvent) : Prop where
  data : f.data = (f.chunks.map (·.data)).flatten
  count : f.count = f.chunks.length
  chars : f.chars = (f.chunks.map (·.size)).sum
  bytes : f.bytes = (f.chunks.map (·.byteSize)).sum

namespace GenAIStreamBuffer

/-- The flush events the consumer was called with. -/
def flushEvents (s : GenAIStreamBuffer) : List GenAIStreamFlushEvent :=
  s.emitted.filterMap Emission.flush?

/-- What conservation is about. -/
structure Books where
  flushed : List GenAIStreamFlushEvent
  queue : List GenAIStreamChunkEvent
  accepted : List GenAIStreamChunkEvent
  loadedChars : ℚ
  loadedBytes : ℚ

def books (s : GenAIStreamBuffer) : Books :=
  ⟨s.flushEvents, s.queue, s.accepted, s.loadedChars, s.loadedBytes⟩

structure Books.Conserved (b : Books) : Prop where
  chunks : b.flushed.flatMap (·.chunks) ++ b.queue = b.accepted
  sums : ∀ f ∈ b.flushed, f.Sums
  loadedChars : b.loadedChars = (b.accepted.map (·.size)).sum
  loadedBytes : b.loadedBytes = (b.accepted.map (·.byteSize)).sum

variable {s s' : GenAIStreamBuffer}

/-! ## What leaves the books as they are -/

@[simp] theorem books_consume {e : Emission} (k : Continuation) (h : e.flush? = none) :
    (s.consume e k).books = s.books := by
  simp [books, consume, flushEvents, h]

@[simp] theorem books_scheduleFlush : s.scheduleFlush.books = s.books := by
  unfold scheduleFlush
  split <;> rfl

@[simp] theorem books_scheduleProgress : s.scheduleProgress.books = s.books := by
  unfold scheduleProgress
  split <;> rfl

@[simp] theorem books_scheduleTimeout : s.scheduleTimeout.books = s.books := by
  unfold scheduleTimeout
  split <;> rfl

@[simp] theorem books_afterFlush (asked : Option Nat) : (s.afterFlush asked).books = s.books := by
  cases asked <;> rfl

@[simp] theorem books_emitProgress (k : Continuation) : (s.emitProgress k).books = s.books := by
  unfold emitProgress
  split
  · rfl
  · exact books_consume k rfl

@[simp] theorem books_reportError : s.reportError.books = s.books := by
  unfold reportError
  split
  · rfl
  · exact books_consume .stop rfl

@[simp] theorem books_cancel : s.cancel.books = s.books := by
  unfold cancel
  split
  · rfl
  · exact books_reportError

@[simp] theorem books_closing (asked : Nat) : (s.closing asked).books = s.books :=
  books_consume .stop rfl

@[simp] theorem books_start : s.start.books = s.books := by
  unfold start
  split
  · rfl
  · exact (books_consume .stop rfl).trans books_scheduleTimeout

@[simp] theorem books_fireProgress : s.fireProgress.books = s.books := by
  unfold fireProgress
  split
  · rfl
  · exact books_emitProgress .interval

@[simp] theorem books_normalizeIndex (index : Option ℤ) :
    (s.normalizeIndex index).1.books = s.books := by
  cases index <;> rfl

/-! ## Flushing and accepting -/

theorem sums_flushEvent : s.flushEvent.Sums := ⟨rfl, rfl, rfl, rfl⟩

theorem books_flush (asked : Option Nat) :
    (s.flush asked).books = s.books ∨
      (s.flush asked).books =
        { s.books with flushed := s.flushEvents ++ [s.flushEvent], queue := [] } := by
  unfold flush
  split
  · right
    simp [books, consume, clearTimer, clearProgressTimer, count, flushEvents, Emission.flush?]
  · exact .inl (books_afterFlush asked)

theorem conserved_flush (asked : Option Nat) (h : s.books.Conserved) :
    (s.flush asked).books.Conserved := by
  rcases books_flush (s := s) asked with same | taken
  · rwa [same]
  · rw [taken]
    refine ⟨?_, fun f hf => ?_, h.loadedChars, h.loadedBytes⟩
    · have chunks := h.chunks
      simp only [List.flatMap_append, List.flatMap_singleton, List.append_nil]
      exact chunks
    · rcases List.mem_append.mp hf with hf | hf
      · exact h.sums f hf
      · obtain rfl := List.mem_singleton.mp hf
        exact sums_flushEvent

theorem conserved_flushed (asked : Option Nat) (ok : Bool) (h : s.books.Conserved) :
    (s.flushed asked ok).books.Conserved := by
  have h : ({ s with processing := false } : GenAIStreamBuffer).books.Conserved := h
  unfold flushed
  simp only
  split
  · split
    · rwa [books_afterFlush]
    · split
      · exact conserved_flush asked h
      · rwa [books_afterFlush, books_scheduleProgress, books_scheduleFlush]
  · exact h

theorem conserved_enqueued (h : s.books.Conserved) : s.enqueued.books.Conserved := by
  unfold enqueued
  split
  · exact conserved_flush none h
  · rwa [books_scheduleProgress, books_scheduleFlush]

theorem conserved_enqueue (event : GenAIStreamChunkEvent) (h : s.books.Conserved) :
    (s.enqueue event).books.Conserved := by
  have same : (s.normalizeChunk event).1.books = s.books := by
    unfold normalizeChunk
    cases event.index <;> rfl
  rw [← same] at h
  unfold enqueue
  generalize s.normalizeChunk event = n at h
  obtain ⟨s₁, chunk⟩ := n
  simp only at h ⊢
  have accepted : ({ s₁ with
      loadedChars := s₁.loadedChars + chunk.size
      loadedBytes := s₁.loadedBytes + chunk.byteSize
      loadedTokens := s₁.loadedTokens + chunk.tokens.getD 0
      queue := s₁.queue ++ [chunk]
      accepted := s₁.accepted ++ [chunk] } : GenAIStreamBuffer).books.Conserved := by
    refine ⟨?_, h.sums, ?_, ?_⟩
    · show _ ++ (s₁.queue ++ [chunk]) = s₁.accepted ++ [chunk]
      rw [← List.append_assoc]
      exact congrArg (· ++ [chunk]) h.chunks
    · show s₁.loadedChars + chunk.size = ((s₁.accepted ++ [chunk]).map (·.size)).sum
      rw [List.map_append, List.sum_append, List.map_singleton, List.sum_singleton]
      exact congrArg (· + chunk.size) h.loadedChars
    · show s₁.loadedBytes + chunk.byteSize = ((s₁.accepted ++ [chunk]).map (·.byteSize)).sum
      rw [List.map_append, List.sum_append, List.map_singleton, List.sum_singleton]
      exact congrArg (· + chunk.byteSize) h.loadedBytes
  split
  · rwa [books_emitProgress]
  · exact conserved_enqueued accepted

theorem conserved_close (h : s.books.Conserved) : s.close.books.Conserved := by
  unfold close
  split
  · exact h
  · exact conserved_flush _ h

theorem conserved_push (event : GenAIStreamEvent) (h : s.books.Conserved) :
    (s.push event).books.Conserved := by
  unfold push
  split
  · exact h
  · rw [← books_scheduleTimeout (s := s)] at h
    cases event with
    | chunk event =>
      rw [← books_normalizeIndex event.index] at h
      exact conserved_enqueue _ h
    | eof index =>
      rw [← books_normalizeIndex index] at h
      exact conserved_close h
    | error index => rwa [books_reportError, books_normalizeIndex]
    | other index =>
      simp only
      rwa [books_consume .stop rfl, books_normalizeIndex]

theorem conserved_resume (ok : Bool) (k : Continuation) (h : s.books.Conserved) :
    (s.resume ok k).books.Conserved := by
  cases k with
  | stop => exact h
  | flushed asked => exact conserved_flushed asked ok h
  | enqueued =>
    cases ok with
    | false => exact h
    | true => exact conserved_enqueued h
  | interval =>
    cases ok with
    | false =>
      show s.reportError.books.Conserved
      rwa [books_reportError]
    | true => exact h
  | closing asked =>
    cases ok with
    | false => exact h
    | true =>
      show (s.closing asked).books.Conserved
      rwa [books_closing]

theorem conserved_step {e : BufferEvent} (h : s.books.Conserved) (hstep : s.step e = some s') :
    s'.books.Conserved := by
  cases e with
  | start =>
    obtain rfl := Option.some.inj hstep
    rwa [books_start]
  | push event =>
    obtain rfl := Option.some.inj hstep
    exact conserved_push event h
  | flush =>
    obtain rfl := Option.some.inj hstep
    exact conserved_flush none h
  | close =>
    obtain rfl := Option.some.inj hstep
    exact conserved_close h
  | cancel =>
    obtain rfl := Option.some.inj hstep
    rwa [books_cancel]
  | resume i ok =>
    obtain ⟨task, -, -, rfl⟩ := step_resume hstep
    exact conserved_resume ok _ h
  | fireFlush =>
    obtain rfl := step_fireFlush hstep
    exact conserved_flush none h
  | fireProgress =>
    obtain rfl := step_fireProgress hstep
    rwa [books_fireProgress]
  | fireTimeout =>
    obtain rfl := step_fireTimeout hstep
    rw [books_reportError]
    exact h

/-! ## Runs -/

theorem run_conserved {options : GenAIStreamBufferOptions} {es : List BufferEvent}
    (run : Run step (fun _ _ => True) (create options) es s) : s.books.Conserved :=
  run.invariant (fun s => s.books.Conserved) (fun _ _ _ h _ hstep => conserved_step h hstep)
    ⟨rfl, fun _ hf => (nomatch hf), rfl, rfl⟩

theorem flatten_flatMap {α β : Type} (l : List α) (chunks : α → List β) (data : β → JSString) :
    (l.map fun f => ((chunks f).map data).flatten).flatten =
      ((l.flatMap chunks).map data).flatten := by
  induction l with
  | nil => rfl
  | cons f l ih =>
    rw [List.map_cons, List.flatten_cons, List.flatMap_cons, List.map_append, List.flatten_append,
      ih]

theorem sum_flatMap {α β : Type} (l : List α) (chunks : α → List β) (size : β → ℚ) :
    (l.map fun f => ((chunks f).map size).sum).sum = ((l.flatMap chunks).map size).sum := by
  induction l with
  | nil => rfl
  | cons f l ih =>
    rw [List.map_cons, List.sum_cons, List.flatMap_cons, List.map_append, List.sum_append, ih]

/-- **Conservation.** In every state the chunks of the flush events and then the queue
are the accepted chunks, in their order; so is their data; and what is loaded is the
sum over the flush events and what the snapshot has pending. -/
theorem buffer_conserves {options : GenAIStreamBufferOptions} {es : List BufferEvent}
    (run : Run step (fun _ _ => True) (create options) es s) :
    s.flushEvents.flatMap (·.chunks) ++ s.queue = s.accepted ∧
      (s.flushEvents.map (·.data)).flatten ++ (s.queue.map (·.data)).flatten =
        (s.accepted.map (·.data)).flatten ∧
      s.loadedChars = (s.flushEvents.map (·.chars)).sum + s.snapshot.pendingChars ∧
      s.loadedBytes = (s.flushEvents.map (·.bytes)).sum + s.snapshot.pendingBytes := by
  obtain ⟨chunks, sums, loadedChars, loadedBytes⟩ := run_conserved run
  change s.flushEvents.flatMap (·.chunks) ++ s.queue = s.accepted at chunks
  change ∀ f ∈ s.flushEvents, f.Sums at sums
  -- what the flush events have is what their chunks have
  have data : (s.flushEvents.map (·.data)).flatten =
      ((s.flushEvents.flatMap (·.chunks)).map (·.data)).flatten := by
    rw [List.map_congr_left fun f hf => (sums f hf).data]
    exact flatten_flatMap ..
  have chars : (s.flushEvents.map (·.chars)).sum =
      ((s.flushEvents.flatMap (·.chunks)).map (·.size)).sum := by
    rw [List.map_congr_left fun f hf => (sums f hf).chars]
    exact sum_flatMap ..
  have bytes : (s.flushEvents.map (·.bytes)).sum =
      ((s.flushEvents.flatMap (·.chunks)).map (·.byteSize)).sum := by
    rw [List.map_congr_left fun f hf => (sums f hf).bytes]
    exact sum_flatMap ..
  refine ⟨chunks, ?_, ?_, ?_⟩
  · rw [data, ← List.flatten_append, ← List.map_append, chunks]
  · rw [chars, snapshot, ← List.sum_append, ← List.map_append, chunks]
    exact loadedChars
  · rw [bytes, snapshot, ← List.sum_append, ← List.map_append, chunks]
    exact loadedBytes

/-! ## A slow consumer -/

/-- Every chunk is flushed, and the consumer takes its time over the first. -/
def slow : GenAIStreamBuffer := create { GenAIStreamBufferOptions.default with useBuffer := false }

def piece (data : String) : BufferEvent := .push (.chunk ⟨none, lit data, none, none, none⟩)

theorem buffer_conserves_slow : ∃ s, Run step (fun _ _ => True) slow
      [piece "a", piece "b", piece "c", .resume 0 false, .flush, .resume 0 true] s ∧
    s.flushEvents.flatMap (·.chunks) ++ s.queue = s.accepted := by
  obtain ⟨s, run⟩ := Run.of_allGood step (fun _ _ => True) slow
    [piece "a", piece "b", piece "c", .resume 0 false, .flush, .resume 0 true] (by decide +kernel)
  exact ⟨s, run, (buffer_conserves run).1⟩

end GenAIStreamBuffer

end LemonModel
