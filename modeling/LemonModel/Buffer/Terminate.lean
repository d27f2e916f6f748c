import LemonModel.Buffer.Conserve

/-!
# The end of a stream

Nothing is emitted after `eof` or `error` as long as no flush starts on a closed
buffer and a `close` that goes on after its flush finds the buffer open; and an `eof`
comes after every chunk that was accepted before `close` was called, if no flush was
in progress with chunks behind it then (`stream_ends_once`).
-/

namespace LemonModel

open Text

/-- The events that end a stream. -/
def Emission.terminal : Emission → Bool
  | .eof _ _ | .error _ => true
  | _ => false

/-- The chunks of the flush events of `l`. -/
def flushedChunks (l : List Emission) : List GenAIStreamChunkEvent :=
  (l.filterMap Emission.flush?).flatMap (·.chunks)

/-- What a call that waits was asked by a `close`. -/
def Continuation.asked : Continuation → Option Nat
  | .flushed asked => asked
  | .closing asked => some asked
  | _ => none

theorem flushedChunks_append (l l' : List Emission) :
    flushedChunks (l ++ l') = flushedChunks l ++ flushedChunks l' := by
  simp [flushedChunks]

namespace GenAIStreamBuffer

variable {s s' s₁ : GenAIStreamBuffer}

/-- How many chunks the consumer got. -/
def flushedCount (s : GenAIStreamBuffer) : Nat := (flushedChunks s.emitted).length

/-- `close` finds no flush in progress with chunks behind it. -/
def ClosesInOrder (s : GenAIStreamBuffer) : Prop :=
  s.closed = false → s.processing = true → s.queue = []

/-- No flush starts on a closed buffer. -/
def FlushesOpen (s : GenAIStreamBuffer) : Prop := s.flushes = true → s.closed = false

/-- The branches that break the end of a stream are not taken. -/
def Orderly (s : GenAIStreamBuffer) : BufferEvent → Prop
  | .flush | .fireFlush => s.FlushesOpen
  | .close | .push (.eof _) => s.ClosesInOrder
  | .resume i true =>
    match (s.tasks[i]?).map Task.continuation with
    | some (.flushed _) =>
      s.needsFlush = true → FlushesOpen { s with processing := false }
    | some .enqueued => s.needsFlush = true → s.FlushesOpen
    | some (.closing _) => s.closed = false
    | _ => True
  | _ => True

/-! ## What one step emits -/

/-- What an event emits, it emits on an open buffer, and what ends the stream closes
it. No task is asked for more than the consumer got, if none was before. -/
structure Grows (s s' : GenAIStreamBuffer) : Prop where
  closed : s.closed = true → s'.closed = true
  emitted : s'.emitted = s.emitted ∨ ∃ e, s'.emitted = s.emitted ++ [e] ∧ s.closed = false ∧
    (e.terminal = true → s'.closed = true) ∧ ∀ i n, e = .eof i n → n ≤ s.flushedCount
  tasks : ∀ t ∈ s'.tasks, ∀ n, t.continuation.asked = some n →
    (∃ t₀ ∈ s.tasks, t₀.continuation.asked = some n) ∨ n ≤ s'.flushedCount

theorem Grows.refl (s : GenAIStreamBuffer) : Grows s s :=
  ⟨fun h => h, .inl rfl, fun t ht _ hn => .inl ⟨t, ht, hn⟩⟩

/-- Only timers and counters differ. -/
structure Silent (s s' : GenAIStreamBuffer) : Prop where
  closed : s'.closed = s.closed
  emitted : s'.emitted = s.emitted
  tasks : s'.tasks = s.tasks
  queue : s'.queue = s.queue
  processing : s'.processing = s.processing
  accepted : s'.accepted = s.accepted

theorem Silent.trans (h : Silent s s₁) (h' : Silent s₁ s') : Silent s s' :=
  ⟨h'.closed.trans h.closed, h'.emitted.trans h.emitted, h'.tasks.trans h.tasks,
    h'.queue.trans h.queue, h'.processing.trans h.processing, h'.accepted.trans h.accepted⟩

theorem Silent.grows (h : Silent s s') : Grows s s' := by
  refine ⟨fun closed => h.closed.trans closed, .inl h.emitted, fun t ht n hn => .inl ⟨t, ?_, hn⟩⟩
  rw [← h.tasks]
  exact ht

theorem Silent.then (h : Silent s s₁) (grows : Grows s₁ s') : Grows s s' := by
  obtain ⟨closed, emitted, tasks⟩ := grows
  have same : s₁.flushedCount = s.flushedCount := by rw [flushedCount, h.emitted, flushedCount]
  rw [h.closed, h.emitted, same] at emitted
  rw [h.closed] at closed
  rw [h.tasks] at tasks
  exact ⟨closed, emitted, tasks⟩

theorem silent_scheduleFlush : Silent s s.scheduleFlush := by
  unfold scheduleFlush
  split <;> exact ⟨rfl, rfl, rfl, rfl, rfl, rfl⟩

theorem silent_scheduleProgress : Silent s s.scheduleProgress := by
  unfold scheduleProgress
  split <;> exact ⟨rfl, rfl, rfl, rfl, rfl, rfl⟩

theorem silent_scheduleTimeout : Silent s s.scheduleTimeout := by
  unfold scheduleTimeout
  split <;> exact ⟨rfl, rfl, rfl, rfl, rfl, rfl⟩

theorem silent_normalizeIndex (index : Option ℤ) : Silent s (s.normalizeIndex index).1 := by
  cases index <;> exact ⟨rfl, rfl, rfl, rfl, rfl, rfl⟩

/-- A call of the consumer that no `close` waits for. -/
theorem grows_consume {e : Emission} {k : Continuation} (isOpen : s.closed = false)
    (more : e.terminal = false) (free : k.asked = none) : Grows s (s.consume e k) := by
  refine ⟨fun closed => closed, .inr ⟨e, rfl, isOpen, fun h => ?_, fun i n h => ?_⟩,
    fun t ht n hn => ?_⟩
  · rw [more] at h
    cases h
  · subst h
    cases more
  · rcases List.mem_append.mp ht with ht | ht
    · exact .inl ⟨t, ht, hn⟩
    · obtain rfl := List.mem_singleton.mp ht
      rw [free] at hn
      cases hn

theorem grows_afterFlush {asked : Option Nat} (enough : ∀ n, asked = some n → n ≤ s.flushedCount) :
    Grows s (s.afterFlush asked) := by
  cases asked with
  | none => exact .refl _
  | some asked =>
    refine ⟨fun h => h, .inl rfl, fun t ht n hn => ?_⟩
    rcases List.mem_append.mp ht with ht | ht
    · exact .inl ⟨t, ht, hn⟩
    · obtain rfl := List.mem_singleton.mp ht
      exact .inr (enough n hn)

theorem grows_flush {asked : Option Nat} (isOpen : s.FlushesOpen)
    (enough : ∀ n, asked = some n →
      n ≤ s.flushedCount ∨ s.flushes = true ∧ n ≤ s.flushedCount + s.queue.length) :
    Grows s (s.flush asked) := by
  unfold flush
  split
  · rename_i flushes
    have more : flushedChunks (s.emitted ++ [.flush s.flushEvent]) =
        flushedChunks s.emitted ++ s.queue := by
      rw [flushedChunks_append]
      exact congrArg (flushedChunks s.emitted ++ ·) (List.append_nil _)
    refine ⟨fun h => h, .inr ⟨_, rfl, isOpen flushes, fun h => (nomatch h), fun _ _ h => (nomatch h)⟩,
      fun t ht n hn => ?_⟩
    rcases List.mem_append.mp ht with ht | ht
    · exact .inl ⟨t, ht, hn⟩
    · obtain rfl := List.mem_singleton.mp ht
      right
      show n ≤ (flushedChunks (s.emitted ++ [.flush s.flushEvent])).length
      rw [more, List.length_append]
      have le := enough n hn
      unfold flushedCount at le
      omega
  · rename_i early
    refine grows_afterFlush fun n hn => ?_
    rcases enough n hn with le | ⟨flushes, -⟩
    · exact le
    · exact absurd flushes early

theorem grows_schedule (asked : Option Nat) (enough : ∀ n, asked = some n → n ≤ s.flushedCount) :
    Grows s (s.scheduleFlush.scheduleProgress.afterFlush asked) := by
  have silent := silent_scheduleFlush.trans (silent_scheduleProgress (s := s.scheduleFlush))
  refine silent.then (grows_afterFlush fun n hn => ?_)
  rw [flushedCount, silent.emitted]
  exact enough n hn

theorem grows_flushed {asked : Option Nat} {ok : Bool}
    (isOpen : ok = true → s.needsFlush = true → FlushesOpen { s with processing := false })
    (enough : ∀ n, asked = some n → n ≤ s.flushedCount) : Grows s (s.flushed asked ok) := by
  have start : Grows s { s with processing := false } :=
    ⟨fun h => h, .inl rfl, fun t ht n hn => .inl ⟨t, ht, hn⟩⟩
  have go {r : GenAIStreamBuffer} (h : Grows { s with processing := false } r) : Grows s r :=
    ⟨h.closed, h.emitted, h.tasks⟩
  unfold flushed
  simp only
  split
  · rename_i done
    split
    · exact go (grows_afterFlush enough)
    · split
      · rename_i needs
        exact go (grows_flush (isOpen done needs) fun n hn => .inl (enough n hn))
      · exact go (grows_schedule _ enough)
  · exact start

theorem grows_enqueued (isOpen : s.needsFlush = true → s.FlushesOpen) : Grows s s.enqueued := by
  unfold enqueued
  split
  · rename_i needs
    exact grows_flush (isOpen needs) fun n hn => (nomatch hn)
  · exact grows_schedule none fun n hn => (nomatch hn)

theorem grows_emitProgress {k : Continuation} (free : k.asked = none) :
    Grows s (s.emitProgress k) := by
  unfold emitProgress
  split
  · refine ⟨fun h => h, .inl rfl, fun t ht n hn => ?_⟩
    rcases List.mem_append.mp ht with ht | ht
    · exact .inl ⟨t, ht, hn⟩
    · obtain rfl := List.mem_singleton.mp ht
      rw [free] at hn
      cases hn
  · rename_i isOpen
    have isOpen : s.closed = false := by simpa using isOpen
    have counted : Silent s s.count := ⟨rfl, rfl, rfl, rfl, rfl, rfl⟩
    exact counted.then (grows_consume isOpen rfl free)

/-- The events that end the stream, on an open buffer. -/
theorem grows_end {e : Emission} (isOpen : s.closed = false)
    (enough : ∀ i n, e = .eof i n → n ≤ s.flushedCount) :
    Grows s (({ s with closed := true }.clearTimer.clearProgressTimer.clearTimeout.count).consume
      e .stop) := by
  refine ⟨fun _ => rfl, .inr ⟨e, rfl, isOpen, fun _ => rfl, enough⟩, fun t ht n hn => ?_⟩
  rcases List.mem_append.mp ht with ht | ht
  · exact .inl ⟨t, ht, hn⟩
  · obtain rfl := List.mem_singleton.mp ht
    cases hn

theorem grows_reportError : Grows s s.reportError := by
  unfold reportError
  split
  · exact .refl _
  · rename_i isOpen
    exact grows_end (by simpa using isOpen) fun _ _ h => (nomatch h)

/-- Every chunk is flushed or in the queue. -/
theorem accepted_length (h : s.books.Conserved) :
    s.accepted.length = s.flushedCount + s.queue.length := by
  have length := congrArg List.length h.chunks
  rw [List.length_append] at length
  exact length.symm

theorem grows_close (conserved : s.books.Conserved) (order : s.ClosesInOrder) :
    Grows s s.close := by
  unfold close
  split
  · exact .refl _
  · rename_i isOpen
    have isOpen : s.closed = false := by simpa using isOpen
    refine grows_flush (fun _ => isOpen) fun n hn => ?_
    obtain rfl := Option.some.inj hn
    rw [accepted_length conserved]
    cases hf : s.flushes with
    | true => exact .inr ⟨rfl, Nat.le_refl _⟩
    | false =>
      left
      have empty : s.queue = [] := by
        cases hp : s.processing with
        | true => exact order isOpen hp
        | false => simpa [GenAIStreamBuffer.flushes, hp] using hf
      rw [empty]
      exact Nat.le_refl _

theorem grows_enqueue {event : GenAIStreamChunkEvent} (isOpen : s.closed = false) :
    Grows s (s.enqueue event) := by
  have silent : Silent s (s.normalizeChunk event).1 := by
    unfold normalizeChunk
    cases event.index <;> exact ⟨rfl, rfl, rfl, rfl, rfl, rfl⟩
  unfold enqueue
  generalize s.normalizeChunk event = n at silent
  obtain ⟨s₁, chunk⟩ := n
  have still : s₁.closed = false := silent.closed.trans isOpen
  refine silent.then ?_
  simp only
  have go {r : GenAIStreamBuffer} (h : Grows ({ s₁ with
      loadedChars := s₁.loadedChars + chunk.size
      loadedBytes := s₁.loadedBytes + chunk.byteSize
      loadedTokens := s₁.loadedTokens + chunk.tokens.getD 0
      queue := s₁.queue ++ [chunk]
      accepted := s₁.accepted ++ [chunk] }) r) : Grows s₁ r :=
    ⟨h.closed, h.emitted, h.tasks⟩
  split
  · exact go (grows_emitProgress rfl)
  · exact go (grows_enqueued fun _ _ => still)

theorem grows_push {event : GenAIStreamEvent} (conserved : s.books.Conserved)
    (order : Orderly s (.push event)) : Grows s (s.push event) := by
  unfold push
  split
  · exact .refl _
  · rename_i isOpen
    have isOpen : s.closed = false := by simpa using isOpen
    have named (index : Option ℤ) : Silent s (s.scheduleTimeout.normalizeIndex index).1 :=
      silent_scheduleTimeout.trans (silent_normalizeIndex index)
    cases event with
    | chunk event =>
      have silent := named event.index
      exact silent.then (grows_enqueue (silent.closed.trans isOpen))
    | eof index =>
      have silent := named index
      refine silent.then (grows_close ?_ fun closed processing => ?_)
      · rwa [books_normalizeIndex, books_scheduleTimeout]
      · rw [silent.queue]
        exact order isOpen (silent.processing ▸ processing)
    | error index => exact (named index).then grows_reportError
    | other index =>
      have silent := named index
      exact silent.then (grows_consume (silent.closed.trans isOpen) rfl rfl)

theorem grows_resume {i : Nat} {ok : Bool} {task : Task} (found : s.tasks[i]? = some task)
    (order : Orderly s (.resume i ok))
    (asked : ∀ n, task.continuation.asked = some n → n ≤ s.flushedCount) :
    Grows s ({ s with tasks := s.tasks.eraseIdx i }.resume ok task.continuation) := by
  have go {r : GenAIStreamBuffer} (h : Grows { s with tasks := s.tasks.eraseIdx i } r) :
      Grows s r := by
    refine ⟨h.closed, h.emitted, fun t ht n hn => (h.tasks t ht n hn).imp_left ?_⟩
    rintro ⟨t₀, ht₀, hn₀⟩
    exact ⟨t₀, List.mem_of_mem_eraseIdx ht₀, hn₀⟩
  apply go
  cases hk : task.continuation with
  | stop => exact .refl _
  | flushed k =>
    refine grows_flushed (fun done needs => ?_) fun n hn => asked n (by rw [hk]; exact hn)
    subst done
    simp only [Orderly, found, Option.map_some, hk] at order
    exact order needs
  | enqueued =>
    cases ok with
    | false => exact .refl _
    | true =>
      simp only [Orderly, found, Option.map_some, hk] at order
      exact grows_enqueued order
  | interval =>
    cases ok with
    | false => exact grows_reportError
    | true => exact .refl _
  | closing n =>
    cases ok with
    | false => exact .refl _
    | true =>
      simp only [Orderly, found, Option.map_some, hk] at order
      refine grows_end order fun i m h => ?_
      cases h
      exact asked n (by rw [hk]; rfl)

theorem grows_step {e : BufferEvent} (conserved : s.books.Conserved)
    (asked : ∀ t ∈ s.tasks, ∀ n, t.continuation.asked = some n → n ≤ s.flushedCount)
    (order : Orderly s e) (hstep : s.step e = some s') : Grows s s' := by
  cases e with
  | start =>
    obtain rfl := Option.some.inj hstep
    unfold start
    split
    · exact .refl _
    · rename_i isOpen
      have isOpen : s.closed = false := by simpa using isOpen
      have silent : Silent s s.scheduleTimeout.count :=
        silent_scheduleTimeout.trans ⟨rfl, rfl, rfl, rfl, rfl, rfl⟩
      exact silent.then (grows_consume (silent.closed.trans isOpen) rfl rfl)
  | push event =>
    obtain rfl := Option.some.inj hstep
    exact grows_push conserved order
  | flush =>
    obtain rfl := Option.some.inj hstep
    exact grows_flush order fun n hn => (nomatch hn)
  | close =>
    obtain rfl := Option.some.inj hstep
    exact grows_close conserved order
  | cancel =>
    obtain rfl := Option.some.inj hstep
    unfold cancel
    split
    · exact .refl _
    · exact grows_reportError
  | resume i ok =>
    obtain ⟨task, found, -, rfl⟩ := step_resume hstep
    exact grows_resume found order (asked task (List.mem_of_getElem? found))
  | fireFlush =>
    obtain rfl := step_fireFlush hstep
    have silent : Silent s { s with timer := some false } := ⟨rfl, rfl, rfl, rfl, rfl, rfl⟩
    exact silent.then (grows_flush order fun n hn => (nomatch hn))
  | fireProgress =>
    obtain rfl := step_fireProgress hstep
    unfold fireProgress
    split
    · exact Silent.grows ⟨rfl, rfl, rfl, rfl, rfl, rfl⟩
    · exact grows_emitProgress rfl
  | fireTimeout =>
    obtain rfl := step_fireTimeout hstep
    have silent : Silent s { s with timeoutTimer := some false } := ⟨rfl, rfl, rfl, rfl, rfl, rfl⟩
    exact silent.then grows_reportError

/-! ## Runs -/

structure Ending (s : GenAIStreamBuffer) : Prop where
  conserved : s.books.Conserved
  isOpen : s.closed = false → ∀ e ∈ s.emitted, e.terminal = false
  last : ∀ before e after, s.emitted = before ++ e :: after → e.terminal = true → after = []
  asked : ∀ t ∈ s.tasks, ∀ n, t.continuation.asked = some n → n ≤ s.flushedCount
  complete : ∀ before i n after, s.emitted = before ++ .eof i n :: after →
    n ≤ (flushedChunks before).length

theorem flushedCount_mono (grows : Grows s s') : s.flushedCount ≤ s'.flushedCount := by
  unfold flushedCount
  rcases grows.emitted with same | ⟨e, more, -⟩
  · rw [same]
  · rw [more, flushedChunks_append, List.length_append]
    omega

/-- An event in a list with one more at its end is in the list or that one. -/
theorem split_snoc {α : Type} {l before after : List α} {e a : α}
    (h : l ++ [e] = before ++ a :: after) :
    (after = [] ∧ l = before ∧ e = a) ∨ ∃ rest, after = rest ++ [e] ∧ l = before ++ a :: rest := by
  rcases List.eq_nil_or_concat after with rfl | ⟨rest, b, rfl⟩
  · obtain ⟨hl, he⟩ := List.append_inj' h rfl
    exact .inl ⟨rfl, hl, List.singleton_inj.mp he⟩
  · rw [List.concat_eq_append, ← List.cons_append, ← List.append_assoc] at h
    obtain ⟨hl, he⟩ := List.append_inj' h rfl
    obtain rfl := List.singleton_inj.mp he
    exact .inr ⟨rest, by rw [List.concat_eq_append], hl⟩

theorem ending_step {e : BufferEvent} (ending : s.Ending) (order : Orderly s e)
    (hstep : s.step e = some s') : s'.Ending := by
  have grows := grows_step ending.conserved ending.asked order hstep
  refine ⟨conserved_step ending.conserved hstep, fun isOpen => ?_, ?_, fun t ht n hn => ?_, ?_⟩
  · rcases grows.emitted with same | ⟨e, more, wasOpen, closes, -⟩
    · rw [same]
      refine ending.isOpen ?_
      cases hc : s.closed with
      | false => rfl
      | true =>
        rw [grows.closed hc] at isOpen
        cases isOpen
    · rw [more]
      intro k hk
      rcases List.mem_append.mp hk with hk | hk
      · exact ending.isOpen wasOpen k hk
      · obtain rfl := List.mem_singleton.mp hk
        cases ht : k.terminal with
        | false => rfl
        | true =>
          rw [closes ht] at isOpen
          cases isOpen
  · rcases grows.emitted with same | ⟨e, more, wasOpen, -, -⟩
    · rw [same]
      exact ending.last
    · intro before k after hk terminal
      rw [more] at hk
      rcases split_snoc hk with ⟨rfl, -, -⟩ | ⟨rest, -, hl⟩
      · rfl
      · have live := ending.isOpen wasOpen k (by rw [hl]; simp)
        rw [terminal] at live
        cases live
  · rcases grows.tasks t ht n hn with ⟨t₀, ht₀, hn₀⟩ | le
    · exact (ending.asked t₀ ht₀ n hn₀).trans (flushedCount_mono grows)
    · exact le
  · rcases grows.emitted with same | ⟨e, more, -, -, enough⟩
    · rw [same]
      exact ending.complete
    · intro before i n after hk
      rw [more] at hk
      rcases split_snoc hk with ⟨-, rfl, he⟩ | ⟨rest, -, hl⟩
      · exact enough i n he
      · exact ending.complete before i n rest hl

/-- **The end of a stream.** In an orderly run an event that ends the stream is the
last and the only one, and before an `eof` come the chunks that had been accepted when
`close` was called. -/
theorem stream_ends_once {options : GenAIStreamBufferOptions} {es : List BufferEvent}
    (run : Run step Orderly (create options) es s) :
    (∀ before e after, s.emitted = before ++ e :: after → e.terminal = true →
        after = [] ∧ ∀ k ∈ before, k.terminal = false) ∧
      ∀ before i n after, s.emitted = before ++ .eof i n :: after →
        s.accepted.take n <+: flushedChunks before := by
  have ending : s.Ending := run.invariant Ending
    (fun _ _ _ h good hstep => ending_step h good hstep)
    ⟨⟨rfl, fun _ hf => (nomatch hf), rfl, rfl⟩, fun _ _ h => (nomatch h),
      fun before e after h => by simp [create] at h, fun _ ht => (nomatch ht),
      fun before i n after h => by simp [create] at h⟩
  refine ⟨fun before e after h terminal => ⟨ending.last before e after h terminal, ?_⟩,
    fun before i n after h => ?_⟩
  · intro k hk
    obtain ⟨front, rest, rfl⟩ := List.append_of_mem hk
    cases live : k.terminal with
    | false => rfl
    | true =>
      have nothing := ending.last front k (rest ++ e :: after) (by rw [h]; simp) live
      simp at nothing
  · have flushed : flushedChunks before <+: s.accepted := by
      have chunks : flushedChunks s.emitted ++ s.queue = s.accepted := ending.conserved.chunks
      rw [← chunks, h, flushedChunks_append, List.append_assoc]
      exact List.prefix_append ..
    obtain ⟨rest, hrest⟩ := flushed
    rw [← hrest, List.take_append_of_le_length (ending.complete before i n after h)]
    exact List.take_prefix ..

/-! ## A close behind a slow consumer -/

instance (s : GenAIStreamBuffer) : Decidable s.ClosesInOrder :=
  inferInstanceAs (Decidable (_ → _ → _))

instance (s : GenAIStreamBuffer) : Decidable s.FlushesOpen :=
  inferInstanceAs (Decidable (_ → _))

instance (s : GenAIStreamBuffer) (e : BufferEvent) : Decidable (Orderly s e) := by
  rcases e with ⟨⟩
  case push event => rcases event with ⟨⟩ <;> dsimp only [Orderly] <;> infer_instance
  case resume i ok =>
    rcases ok with ⟨⟩
    · exact .isTrue trivial
    · dsimp only [Orderly]
      generalize (s.tasks[i]?).map Task.continuation = next
      rcases next with _ | ⟨⟨⟩⟩ <;> infer_instance
  all_goals dsimp only [Orderly]; infer_instance

theorem stream_ends_once_slow : ∃ s, Run step Orderly slow
      [piece "a", .close, .resume 0 true, .resume 0 true] s ∧
    ∀ before i n after, s.emitted = before ++ .eof i n :: after →
      s.accepted.take n <+: flushedChunks before := by
  obtain ⟨s, run⟩ := Run.of_allGood step Orderly slow
    [piece "a", .close, .resume 0 true, .resume 0 true] (by decide +kernel)
  exact ⟨s, run, (stream_ends_once run).2⟩

/-- The second chunk waits behind the flush of the first when `close` is called: its
own flush returns at once, `eof` is emitted as the second of three events, and the
second chunk after it. -/
theorem close_overtakes_chunk : ∃ s, Run step (fun _ _ => True) slow
      [piece "a", piece "b", .close, .resume 1 true, .resume 0 true] s ∧
    s.emitted[1]? = some (.eof 3 2) ∧ s.emitted.length = 3 ∧ s.accepted.length = 2 ∧
    (flushedChunks (s.emitted.take 1)).length = 1 := by
  obtain ⟨s, run⟩ := Run.of_allGood step (fun _ _ => True) slow
    [piece "a", piece "b", .close, .resume 1 true, .resume 0 true] (by decide +kernel)
  refine ⟨s, run, ?_, ?_, ?_, ?_⟩
  · exact run.read (f := fun s => s.emitted[1]?) (a := some (.eof 3 2)) (by decide +kernel)
  · exact run.read (f := fun s => s.emitted.length) (a := 3) (by decide +kernel)
  · exact run.read (f := fun s => s.accepted.length) (a := 2) (by decide +kernel)
  · exact run.read (f := fun s => (flushedChunks (s.emitted.take 1)).length) (a := 1)
      (by decide +kernel)

end GenAIStreamBuffer

end LemonModel
