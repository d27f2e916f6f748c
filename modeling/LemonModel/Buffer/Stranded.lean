import LemonModel.Buffer.Conserve

/-!
# A timer for what waits

Chunks that wait need a flush, an `enqueue` that goes on, or a timer that runs. The handle
of a timer that fired in vain keeps the next one from being armed, and a consumer that
rejects leaves nothing behind.
-/

namespace LemonModel

open Text

namespace GenAIStreamBuffer

variable {s s' : GenAIStreamBuffer}

/-- What the timer is about. -/
structure Watch where
  options : GenAIStreamBufferOptions
  closed : Bool
  processing : Bool
  suspended : Bool
  queue : List GenAIStreamChunkEvent
  timer : Option Bool

/-- `suspended` is whether an `enqueue` waits for the consumer. -/
def watch (s : GenAIStreamBuffer) : Watch :=
  ⟨s.options, s.closed, s.processing, s.tasks.any fun t => t.continuation = .enqueued, s.queue, s.timer⟩

/-- Chunks of an open buffer wait, and neither a flush nor an `enqueue` is under way. -/
structure Watch.Unattended (w : Watch) : Prop where
  useBuffer : w.options.useBuffer = true
  closed : w.closed = false
  processing : w.processing = false
  suspended : w.suspended = false
  queue : w.queue ≠ []

/-- Then a flush timer runs. -/
def Watched (s : GenAIStreamBuffer) : Prop := s.watch.Unattended → s.timer = some true

theorem watched_congr (same : s'.watch = s.watch) : s'.Watched ↔ s.Watched := by
  unfold Watched
  rw [same, show s'.timer = s.timer from congrArg Watch.timer same]

/-! ## What the timer is not about -/

theorem watch_consume {event : Emission} {k : Continuation} (h : k ≠ .enqueued) :
    (s.consume event k).watch = s.watch := by
  simp [watch, consume, h]

theorem watch_proceed {k : Continuation} (h : k ≠ .enqueued) : (s.proceed k).watch = s.watch := by
  simp [watch, proceed, h]

theorem watch_afterFlush (asked : Option Nat) : (s.afterFlush asked).watch = s.watch := by
  cases asked with
  | none => rfl
  | some asked => exact watch_proceed (by simp)

theorem watch_scheduleProgress : s.scheduleProgress.watch = s.watch := by
  unfold scheduleProgress
  split <;> rfl

theorem watch_scheduleTimeout : s.scheduleTimeout.watch = s.watch := by
  unfold scheduleTimeout
  split <;> rfl

theorem watch_normalizeIndex (index : Option ℤ) : (s.normalizeIndex index).1.watch = s.watch := by
  cases index <;> rfl

theorem watch_emitProgress {k : Continuation} (h : k ≠ .enqueued) :
    (s.emitProgress k).watch = s.watch := by
  unfold emitProgress
  split
  · exact watch_proceed h
  · exact watch_consume h

/-! ## Flushing, and the end -/

theorem watched_closed (closed : s.closed = true) : s.Watched := by
  intro alone
  have open_ : s.closed = false := alone.closed
  rw [closed] at open_
  cases open_

theorem watched_processing (processing : s.processing = true) : s.Watched := by
  intro alone
  have idle : s.processing = false := alone.processing
  rw [processing] at idle
  cases idle

theorem watched_empty (empty : s.queue = []) : s.Watched := fun alone => absurd empty alone.queue

theorem watched_suspended (suspended : s.watch.suspended = true) : s.Watched := by
  intro alone
  rw [alone.suspended] at suspended
  cases suspended

/-- A flush takes the queue, unless another one does or there is nothing to take. -/
theorem watched_flush (asked : Option Nat) : (s.flush asked).Watched := by
  unfold flush
  cases taken : s.flushes with
  | true =>
    rw [if_pos rfl]
    exact watched_processing rfl
  | false =>
    rw [if_neg Bool.false_ne_true, watched_congr (watch_afterFlush asked)]
    simp only [flushes, Bool.and_eq_false_iff, Bool.not_eq_false'] at taken
    rcases taken with processing | empty
    · exact watched_processing processing
    · exact watched_empty (List.isEmpty_iff.mp empty)

theorem watched_reportError : s.reportError.Watched := by
  apply watched_closed
  unfold reportError
  split
  · assumption
  · rfl

theorem watched_closing (asked : Nat) : (s.closing asked).Watched := watched_closed rfl

/-! ## What is left of a call -/

/-- A call that ends leaves the queue to the timer: it flushes, or the handle is not that of
a timer that fired; if its promise was rejected, the timer runs. -/
def Leaves (s : GenAIStreamBuffer) (ok : Bool) : Prop :=
  s.watch.Unattended →
    if ok then s.needsFlush = true ∨ s.timer ≠ some false else s.timer = some true

theorem leaves_rejected : s.Leaves false ↔ s.Watched := by
  simp [Leaves, Watched]

theorem watched_scheduleFlush : s.scheduleFlush.Watched ↔
    (s.watch.Unattended → s.timer ≠ some false) := by
  unfold scheduleFlush
  cases timer : s.timer with
  | none =>
    rw [if_neg (by simp)]
    exact iff_of_true (fun _ => rfl) (fun _ => nofun)
  | some runs =>
    simp only [Option.isSome_some, if_true, Watched, timer]
    cases runs <;> simp

theorem watched_enqueued : s.enqueued.Watched ↔ s.Leaves true := by
  unfold enqueued
  cases needs : s.needsFlush with
  | true =>
    rw [if_pos rfl]
    exact iff_of_true (watched_flush none) fun _ => .inl needs
  | false =>
    rw [if_neg Bool.false_ne_true, watched_congr watch_scheduleProgress, watched_scheduleFlush]
    simp [Leaves, needs]

theorem watched_flushed (asked : Option Nat) (ok : Bool) :
    (s.flushed asked ok).Watched ↔ ({ s with processing := false } : GenAIStreamBuffer).Leaves ok := by
  unfold flushed
  generalize ({ s with processing := false } : GenAIStreamBuffer) = u
  simp only
  cases ok with
  | false =>
    rw [if_neg Bool.false_ne_true]
    exact leaves_rejected.symm
  | true =>
    rw [if_pos rfl]
    split
    · rename_i empty
      rw [watched_congr (watch_afterFlush asked)]
      exact iff_of_true (watched_empty empty) fun alone => absurd empty alone.queue
    · split
      · rename_i needs
        exact iff_of_true (watched_flush asked) fun _ => .inl needs
      · rename_i needs
        rw [watched_congr ((watch_afterFlush asked).trans watch_scheduleProgress),
          watched_scheduleFlush]
        simp [Leaves, needs]

theorem leaves_congr (same : s'.watch = s.watch) (ok : Bool) : s'.Leaves ok ↔ s.Leaves ok := by
  have options : s'.options = s.options := congrArg Watch.options same
  have queue : s'.queue = s.queue := congrArg Watch.queue same
  have timer : s'.timer = s.timer := congrArg Watch.timer same
  simp only [Leaves, needsFlush, shouldFlush, same, options, queue, timer]

/-- A chunk is put into the queue. -/
def withChunk (s : GenAIStreamBuffer) (event : GenAIStreamChunkEvent) : GenAIStreamBuffer :=
  { s with queue := s.queue ++ [event] }

theorem watch_withChunk (same : s'.watch = s.watch) (event : GenAIStreamChunkEvent) :
    (s'.withChunk event).watch = (s.withChunk event).watch := by
  have queue : s'.queue = s.queue := congrArg Watch.queue same
  simp only [watch, withChunk, Watch.mk.injEq] at same ⊢
  simpa [queue] using same

/-- What matters of a chunk is its size. -/
theorem leaves_withChunk {event event' : GenAIStreamChunkEvent}
    (size : event'.byteSize = event.byteSize) (ok : Bool) :
    (s.withChunk event').Leaves ok ↔ (s.withChunk event).Leaves ok := by
  have needs : (s.withChunk event').needsFlush = (s.withChunk event).needsFlush := by
    simp only [withChunk, needsFlush, shouldFlush, List.length_append, List.map_append, List.map_cons,
      List.map_nil, List.length_cons, List.length_nil, size]
  have alone : (s.withChunk event').watch.Unattended ↔ (s.withChunk event).watch.Unattended := by
    constructor
    · exact fun h => ⟨h.useBuffer, h.closed, h.processing, h.suspended, by simp [watch, withChunk]⟩
    · exact fun h => ⟨h.useBuffer, h.closed, h.processing, h.suspended, by simp [watch, withChunk]⟩
  simp only [Leaves, needs, alone]
  rfl

theorem watched_enqueue (open_ : s.closed = false) (event : GenAIStreamChunkEvent) :
    (s.enqueue event).Watched ↔ s.options.emitProgress = true ∨ (s.withChunk event).Leaves true := by
  have size : (s.normalizeChunk event).2.byteSize = event.byteSize := by
    unfold normalizeChunk
    cases event.index <;> rfl
  have same : (s.normalizeChunk event).1.watch = s.watch := by
    unfold normalizeChunk
    cases event.index <;> rfl
  rw [← leaves_withChunk size]
  unfold enqueue
  generalize s.normalizeChunk event = n at same ⊢
  obtain ⟨s₁, chunk⟩ := n
  have options : s₁.options = s.options := congrArg Watch.options same
  have closed : s₁.closed = s.closed := congrArg Watch.closed same
  have pushed : (s₁.withChunk chunk).watch = (s.withChunk chunk).watch := watch_withChunk same chunk
  simp only [options]
  split
  · rename_i emits
    refine iff_of_true (watched_suspended ?_) (.inl emits)
    simp [emitProgress, closed, open_, watch, consume]
  · rename_i silent
    rw [watched_enqueued, or_iff_right silent]
    rw [← options]
    exact leaves_congr pushed true

/-! ## One event -/

/-- Where a call ends, it leaves the queue to the timer. -/
def Handed (s : GenAIStreamBuffer) : BufferEvent → Prop
  | .push (.chunk event) => s.options.emitProgress = true ∨ (s.withChunk event).Leaves true
  | .resume i ok =>
    match (s.tasks[i]?).map Task.continuation with
    | some (.flushed _) =>
      ({ s with tasks := s.tasks.eraseIdx i, processing := false } : GenAIStreamBuffer).Leaves ok
    | some .enqueued => ({ s with tasks := s.tasks.eraseIdx i } : GenAIStreamBuffer).Leaves ok
    | _ => True
  | _ => True

theorem watched_close (h : s.Watched) : s.close.Watched := by
  unfold close
  split
  · exact h
  · exact watched_flush _

theorem watched_push (h : s.Watched) (event : GenAIStreamEvent) :
    (s.push event).Watched ↔ s.Handed (.push event) := by
  unfold push
  split
  · rename_i closed
    refine iff_of_true h ?_
    cases event with
    | chunk event =>
      right
      intro alone
      have open_ : s.closed = false := alone.closed
      rw [closed] at open_
      cases open_
    | eof | error | other => trivial
  · rename_i open_
    have open_ : s.closed = false := by simpa using open_
    have same : ∀ index, (s.scheduleTimeout.normalizeIndex index).1.watch = s.watch := fun _ =>
      (watch_normalizeIndex _).trans watch_scheduleTimeout
    cases event with
    | chunk event =>
      have same := same event.index
      simp only [Handed]
      generalize s.scheduleTimeout.normalizeIndex event.index = n at same ⊢
      obtain ⟨s₁, index⟩ := n
      have options : s₁.options = s.options := congrArg Watch.options same
      have closed : s₁.closed = s.closed := congrArg Watch.closed same
      have size : ({ event with index := some index } : GenAIStreamChunkEvent).byteSize =
        event.byteSize := rfl
      rw [watched_enqueue (closed.trans open_), options, leaves_withChunk size,
        leaves_congr (watch_withChunk same event)]
    | eof index =>
      exact iff_of_true (watched_close ((watched_congr (same index)).mpr h)) trivial
    | error index => exact iff_of_true watched_reportError trivial
    | other index =>
      refine iff_of_true ?_ trivial
      exact (watched_congr ((watch_consume (by simp)).trans (same index))).mpr h

/-- A task other than an `enqueue` is no concern of the timer. -/
theorem watch_erase {i : Nat} {task : Task} (found : s.tasks[i]? = some task)
    (other : task.continuation ≠ .enqueued) :
    ({ s with tasks := s.tasks.eraseIdx i } : GenAIStreamBuffer).watch = s.watch := by
  have same : (s.tasks.eraseIdx i).any (fun t => t.continuation = .enqueued) =
      s.tasks.any fun t => t.continuation = .enqueued := by
    have perm : (task :: s.tasks.eraseIdx i).Perm s.tasks := by
      obtain ⟨lt, rfl⟩ := List.getElem?_eq_some_iff.mp found
      exact List.getElem_cons_eraseIdx_perm lt
    rw [← perm.any_eq, List.any_cons]
    simp [other]
  simp only [watch, same]

theorem watched_resume (h : s.Watched) {i : Nat} {ok : Bool} {task : Task}
    (found : s.tasks[i]? = some task) (can : task.consuming = true ∨ ok = true) :
    (({ s with tasks := s.tasks.eraseIdx i } : GenAIStreamBuffer).resume ok
      task.continuation).Watched ↔ s.Handed (.resume i ok) := by
  simp only [Handed, found, Option.map_some]
  have kept := fun other => (watched_congr (watch_erase found other)).mpr h
  cases task_ : task.continuation with
  | stop =>
    refine iff_of_true (kept ?_) trivial
    rw [task_]
    simp
  | flushed asked => exact watched_flushed asked ok
  | enqueued =>
    cases ok with
    | false => exact leaves_rejected.symm
    | true => exact watched_enqueued
  | interval =>
    refine iff_of_true ?_ trivial
    cases ok with
    | false => exact watched_reportError
    | true =>
      apply kept
      rw [task_]
      simp
  | closing asked =>
    refine iff_of_true ?_ trivial
    cases ok with
    | false =>
      apply kept
      rw [task_]
      simp
    | true => exact watched_closing asked

theorem watched_step {e : BufferEvent} (h : s.Watched) (hstep : s.step e = some s') :
    s'.Watched ↔ s.Handed e := by
  cases e with
  | start =>
    obtain rfl := Option.some.inj hstep
    refine iff_of_true ?_ trivial
    unfold start
    split
    · exact h
    · have same : (s.scheduleTimeout.count.consume (.start s.index) .stop).watch = s.watch :=
        (watch_consume (by simp)).trans watch_scheduleTimeout
      exact (watched_congr same).mpr h
  | push event =>
    obtain rfl := Option.some.inj hstep
    exact watched_push h event
  | flush =>
    obtain rfl := Option.some.inj hstep
    exact iff_of_true (watched_flush none) trivial
  | close =>
    obtain rfl := Option.some.inj hstep
    exact iff_of_true (watched_close h) trivial
  | cancel =>
    obtain rfl := Option.some.inj hstep
    refine iff_of_true ?_ trivial
    unfold cancel
    split
    · exact h
    · exact watched_reportError
  | resume i ok =>
    obtain ⟨task, found, can, rfl⟩ := step_resume hstep
    exact watched_resume h found can
  | fireFlush =>
    obtain rfl := step_fireFlush hstep
    exact iff_of_true (watched_flush none) trivial
  | fireProgress =>
    obtain rfl := step_fireProgress hstep
    refine iff_of_true ?_ trivial
    unfold fireProgress
    split
    · exact h
    · exact (watched_congr (watch_emitProgress (by simp))).mpr h
  | fireTimeout =>
    obtain rfl := step_fireTimeout hstep
    exact iff_of_true watched_reportError trivial

/-- **When no chunk is stranded.** Chunks of an open buffer that neither a flush nor an
`enqueue` looks after have a timer that runs, in every state of a run, exactly if every call
that ends leaves them to it. -/
theorem no_chunk_stranded {options : GenAIStreamBufferOptions} {es : List BufferEvent}
    (h : exec step (create options) es = some s) :
    (∀ pre t, pre <+: es → exec step (create options) pre = some t → t.Watched) ↔
      Run step Handed (create options) es s := by
  have judged : ∀ s e s', True → Watched s → step s e = some s' →
      True ∧ (Watched s' ↔ Handed s e) :=
    fun _ _ _ _ watched hstep => ⟨trivial, watched_step watched hstep⟩
  exact exec_judged_iff judged trivial (watched_empty rfl) h

/-! The consumer is slow with a flush, and the timer for the next chunk fires meanwhile. -/

instance (s : GenAIStreamBuffer) : Decidable s.watch.Unattended :=
  decidable_of_iff (s.options.useBuffer = true ∧ s.closed = false ∧ s.processing = false ∧
      s.watch.suspended = false ∧ s.queue ≠ [])
    ⟨fun ⟨a, b, c, d, e⟩ => ⟨a, b, c, d, e⟩, fun ⟨a, b, c, d, e⟩ => ⟨a, b, c, d, e⟩⟩

instance (s : GenAIStreamBuffer) (ok : Bool) : Decidable (s.Leaves ok) := by
  unfold Leaves
  cases ok <;> infer_instance

instance (s : GenAIStreamBuffer) (e : BufferEvent) : Decidable (s.Handed e) := by
  unfold Handed
  split <;> try split
  all_goals infer_instance

theorem no_chunk_stranded_slow : ∃ s,
    exec step (create .default) [piece "a", .fireFlush, piece "b", .resume 0 true] = some s ∧
      s.queue ≠ [] ∧ s.Watched := by
  obtain ⟨s, run⟩ := Run.of_allGood step Handed (create .default)
    [piece "a", .fireFlush, piece "b", .resume 0 true] (by decide +kernel)
  have length : s.queue.length = 1 := run.read (f := fun s => s.queue.length) (by decide +kernel)
  refine ⟨s, run.exec_eq, fun empty => ?_, ?_⟩
  · rw [empty] at length
    cases length
  · exact (no_chunk_stranded run.exec_eq).mpr run _ s List.prefix_rfl run.exec_eq

/-- The second chunk waits, and no timer runs. -/
theorem chunk_is_stranded : ∃ s,
    exec step (create .default) [piece "a", .fireFlush, piece "b", .fireFlush, .resume 0 true] =
      some s ∧ s.watch.Unattended ∧ s.timer = some false := by
  have done : (exec step (create .default)
      [piece "a", .fireFlush, piece "b", .fireFlush, .resume 0 true]).map
        (fun s => (decide s.watch.Unattended, s.timer)) = some (true, some false) := by
    decide +kernel
  obtain ⟨s, hexec, values⟩ := Option.map_eq_some_iff.mp done
  obtain ⟨alone, timer⟩ := Prod.mk.inj values
  exact ⟨s, hexec, of_decide_eq_true alone, timer⟩

end GenAIStreamBuffer

end LemonModel
