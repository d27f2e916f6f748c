import LemonModel.Buffer.Tokens

/-!
# A mock stream across the network

`runMockGenAIStream` over a network consumer: when the far end hears `null`, it has heard
the content, whole.
-/

namespace LemonModel

open Text

/-- The loop of `mockGenAIStream`; its `fuel` is a bound on the rounds. -/
def mockPieces (content : JSString) (chunkSize : ℚ) : Nat → ℚ → List JSString
  | 0, _ => []
  | fuel + 1, i =>
    if i < content.length then
      substring content i (i + chunkSize) :: mockPieces content chunkSize fuel (i + chunkSize)
    else []

theorem mockPieces_flatten (content : JSString) {chunkSize : ℚ} (step : 1 ≤ chunkSize) (fuel : Nat)
    {i : ℚ} (nonneg : 0 ≤ i) (enough : content.length ≤ ⌊i⌋.toNat + fuel) :
    (mockPieces content chunkSize fuel i).flatten = content.drop ⌊i⌋.toNat := by
  induction fuel generalizing i with
  | zero =>
    rw [mockPieces, List.flatten_nil, List.drop_of_length_le (by simpa using enough)]
  | succ fuel ih =>
    have ahead : ⌊i⌋.toNat + 1 ≤ ⌊i + chunkSize⌋.toNat := by
      have more : ⌊i⌋ + 1 ≤ ⌊i + chunkSize⌋ := by
        rw [← Int.floor_add_one]
        exact Int.floor_le_floor (by linarith)
      have := Int.floor_nonneg.mpr nonneg
      omega
    rw [mockPieces]
    split
    · rename_i inside
      have below : ⌊i⌋.toNat < content.length := by
        have lt : ⌊i⌋ < (content.length : ℤ) := Int.floor_lt.mpr (by exact_mod_cast inside)
        have := Int.floor_nonneg.mpr nonneg
        omega
      rw [List.flatten_cons, ih (by linarith) (by omega)]
      have cut : substring content i (i + chunkSize) =
          (content.drop ⌊i⌋.toNat).take (⌊i + chunkSize⌋.toNat - ⌊i⌋.toNat) := by
        unfold substring stringIndex
        dsimp only
        rw [Nat.min_eq_left below.le]
        by_cases long : ⌊i + chunkSize⌋.toNat ≤ content.length
        · rw [Nat.min_eq_left long, Nat.min_eq_left (by omega), Nat.max_eq_right (by omega)]
        · rw [Nat.min_eq_right (by omega : content.length ≤ _), Nat.min_eq_left below.le,
            Nat.max_eq_right below.le, List.take_of_length_le (by simp),
            List.take_of_length_le (by simp; omega)]
      have rest : content.drop ⌊i + chunkSize⌋.toNat =
          (content.drop ⌊i⌋.toNat).drop (⌊i + chunkSize⌋.toNat - ⌊i⌋.toNat) := by
        rw [List.drop_drop]
        congr 1
        omega
      rw [cut, rest, List.take_append_drop]
    · rename_i outside
      have past : content.length ≤ ⌊i⌋.toNat := by
        have le : (content.length : ℤ) ≤ ⌊i⌋ := Int.le_floor.mpr (by exact_mod_cast not_lt.mp outside)
        omega
      rw [List.flatten_nil, List.drop_of_length_le past]

/-- `mockGenAIStream` -/
def mockGenAIStream (content : JSString) (chunkSize : Option ℚ) : List GenAIStreamEvent :=
  .other none :: ((mockPieces content (max 1 (chunkSize.getD 16)) content.length 0).map fun data =>
    .chunk ⟨none, data, none, none, none⟩) ++ [.eof none]

/-- The data of a chunk. -/
def GenAIStreamEvent.data? : GenAIStreamEvent → Option JSString
  | .chunk event => some event.data
  | _ => none

namespace GenAIStreamBuffer

variable {s s' s₁ : GenAIStreamBuffer} {P : Nat → Prop}

/-! ## What a `close` was asked for -/

/-- What the tasks and the `eof` events were asked for. -/
structure Asks (P : Nat → Prop) (s : GenAIStreamBuffer) : Prop where
  tasks : ∀ t ∈ s.tasks, ∀ n, t.continuation.asked = some n → P n
  emitted : ∀ i n, .eof i n ∈ s.emitted → P n

/-- Nothing is accepted, nothing opens, and nothing else is asked for. -/
structure Steady (P : Nat → Prop) (s s' : GenAIStreamBuffer) : Prop where
  accepted : s'.accepted = s.accepted
  closed : s.closed = true → s'.closed = true
  asks : s.Asks P → s'.Asks P

theorem Steady.refl (s : GenAIStreamBuffer) : Steady P s s := ⟨rfl, id, id⟩

theorem Steady.trans (h : Steady P s s₁) (h' : Steady P s₁ s') : Steady P s s' :=
  ⟨h'.accepted.trans h.accepted, h'.closed ∘ h.closed, h'.asks ∘ h.asks⟩

theorem Silent.steady (h : Silent s s') : Steady P s s' :=
  ⟨h.accepted, fun closed => h.closed.trans closed,
    fun asks => ⟨h.tasks ▸ asks.tasks, h.emitted ▸ asks.emitted⟩⟩

theorem steady_consume {e : Emission} {k : Continuation} (he : ∀ i n, e = .eof i n → P n)
    (hk : ∀ n, k.asked = some n → P n) : Steady P s (s.consume e k) := by
  refine ⟨rfl, id, fun asks => ⟨fun t ht n hn => ?_, fun i n hmem => ?_⟩⟩
  · rcases List.mem_append.mp ht with ht | ht
    · exact asks.tasks t ht n hn
    · obtain rfl := List.mem_singleton.mp ht
      exact hk n hn
  · rcases List.mem_append.mp hmem with hmem | hmem
    · exact asks.emitted i n hmem
    · exact he i n (List.mem_singleton.mp hmem).symm

theorem steady_proceed {k : Continuation} (hk : ∀ n, k.asked = some n → P n) :
    Steady P s (s.proceed k) := by
  refine ⟨rfl, id, fun asks => ⟨fun t ht n hn => ?_, asks.emitted⟩⟩
  rcases List.mem_append.mp ht with ht | ht
  · exact asks.tasks t ht n hn
  · obtain rfl := List.mem_singleton.mp ht
    exact hk n hn

theorem steady_afterFlush {asked : Option Nat} (h : ∀ n, asked = some n → P n) :
    Steady P s (s.afterFlush asked) := by
  cases asked with
  | none => exact .refl s
  | some n => exact steady_proceed fun m hm => h m hm

theorem steady_flush {asked : Option Nat} (h : ∀ n, asked = some n → P n) :
    Steady P s (s.flush asked) := by
  unfold flush
  split
  · have taken : Steady P s
        ({ s with processing := true, queue := [] }.clearTimer.clearProgressTimer.count) :=
      ⟨rfl, id, fun asks => ⟨asks.tasks, asks.emitted⟩⟩
    exact taken.trans (steady_consume (fun _ _ h => nomatch h) fun n hn => h n hn)
  · exact steady_afterFlush h

theorem steady_schedule : Steady P s s.scheduleFlush.scheduleProgress :=
  silent_scheduleFlush.steady.trans silent_scheduleProgress.steady

theorem steady_flushed {asked : Option Nat} {ok : Bool} (h : ∀ n, asked = some n → P n) :
    Steady P s (s.flushed asked ok) := by
  have freed : Steady P s { s with processing := false } :=
    ⟨rfl, id, fun asks => ⟨asks.tasks, asks.emitted⟩⟩
  unfold flushed
  dsimp only
  split
  · split
    · exact freed.trans (steady_afterFlush h)
    · split
      · exact freed.trans (steady_flush h)
      · exact (freed.trans steady_schedule).trans (steady_afterFlush h)
  · exact freed

theorem steady_enqueued : Steady P s s.enqueued := by
  unfold enqueued
  split
  · exact steady_flush fun _ h => nomatch h
  · exact steady_schedule

theorem steady_emitProgress {k : Continuation} (hk : k.asked = none) :
    Steady P s (s.emitProgress k) := by
  have free : ∀ n, k.asked = some n → P n := fun n hn => by rw [hk] at hn; cases hn
  unfold emitProgress
  split
  · exact steady_proceed free
  · have counted : Steady P s s.count := ⟨rfl, id, fun asks => ⟨asks.tasks, asks.emitted⟩⟩
    exact counted.trans (steady_consume (fun _ _ h => nomatch h) free)

/-- The stream ends, with `e`. -/
theorem steady_end {e : Emission} (he : ∀ i n, e = .eof i n → P n) :
    Steady P s
      (({ s with closed := true }.clearTimer.clearProgressTimer.clearTimeout.count).consume e
        .stop) := by
  have ended : Steady P s
      ({ s with closed := true }.clearTimer.clearProgressTimer.clearTimeout.count) :=
    ⟨rfl, fun _ => rfl, fun asks => ⟨asks.tasks, asks.emitted⟩⟩
  exact ended.trans (steady_consume he fun _ h => nomatch h)

theorem steady_reportError : Steady P s s.reportError := by
  unfold reportError
  split
  · exact .refl s
  · exact steady_end fun _ _ h => nomatch h

theorem steady_close (h : s.closed = false → P s.accepted.length) : Steady P s s.close := by
  unfold close
  cases closed : s.closed with
  | true => exact .refl s
  | false =>
    refine steady_flush fun n hn => ?_
    cases hn
    exact h closed

theorem steady_resume {k : Continuation} {ok : Bool} (h : ∀ n, k.asked = some n → P n) :
    Steady P s (s.resume ok k) := by
  cases k with
  | stop => exact .refl s
  | flushed asked => exact steady_flushed h
  | enqueued =>
    cases ok with
    | false => exact .refl s
    | true => exact steady_enqueued
  | interval =>
    cases ok with
    | false => exact steady_reportError
    | true => exact .refl s
  | closing asked =>
    cases ok with
    | false => exact .refl s
    | true =>
      refine steady_end fun i n hn => ?_
      cases hn
      exact h asked rfl

/-- A chunk is accepted with its data. -/
theorem steady_enqueue (event : GenAIStreamChunkEvent) : ∃ chunk, chunk.data = event.data ∧
    Steady P { s with accepted := s.accepted ++ [chunk] } (s.enqueue event) := by
  obtain ⟨same, data⟩ : Silent s (s.normalizeChunk event).1 ∧
      (s.normalizeChunk event).2.data = event.data := by
    unfold normalizeChunk
    cases event.index <;> exact ⟨⟨rfl, rfl, rfl, rfl, rfl, rfl⟩, rfl⟩
  unfold enqueue
  generalize s.normalizeChunk event = n at same data
  obtain ⟨s₁, chunk⟩ := n
  refine ⟨chunk, data, ?_⟩
  have stored : Steady P { s with accepted := s.accepted ++ [chunk] }
      { s₁ with
        loadedChars := s₁.loadedChars + chunk.size
        loadedBytes := s₁.loadedBytes + chunk.byteSize
        loadedTokens := s₁.loadedTokens + chunk.tokens.getD 0
        queue := s₁.queue ++ [chunk]
        accepted := s₁.accepted ++ [chunk] } :=
    ⟨congrArg (· ++ [chunk]) same.accepted, fun closed => same.closed.trans closed,
      fun asks => ⟨same.tasks.symm ▸ asks.tasks, same.emitted.symm ▸ asks.emitted⟩⟩
  dsimp only
  split
  · exact stored.trans (steady_emitProgress rfl)
  · exact stored.trans steady_enqueued

theorem push_chunk (event : GenAIStreamChunkEvent) (isOpen : s.closed = false) :
    ∃ chunk, chunk.data = event.data ∧
      Steady P { s with accepted := s.accepted ++ [chunk] } (s.push (.chunk event)) := by
  have same : Silent s (s.scheduleTimeout.normalizeIndex event.index).1 :=
    silent_scheduleTimeout.trans (silent_normalizeIndex event.index)
  unfold push
  rw [if_neg (by simp [isOpen])]
  dsimp only
  generalize s.scheduleTimeout.normalizeIndex event.index = n at same
  obtain ⟨s₁, index⟩ := n
  obtain ⟨chunk, data, steady⟩ := steady_enqueue (P := P) (s := s₁) { event with index := some index }
  have carried : Steady P { s with accepted := s.accepted ++ [chunk] }
      { s₁ with accepted := s₁.accepted ++ [chunk] } :=
    ⟨congrArg (· ++ [chunk]) same.accepted, fun closed => same.closed.trans closed,
      fun asks => ⟨same.tasks.symm ▸ asks.tasks, same.emitted.symm ▸ asks.emitted⟩⟩
  exact ⟨chunk, data, carried.trans steady⟩

theorem push_other (index : Option ℤ) : Steady P s (s.push (.other index)) := by
  unfold push
  split
  · exact .refl s
  · have same := (silent_scheduleTimeout (s := s)).trans (silent_normalizeIndex index)
    exact same.steady.trans (steady_consume (fun _ _ h => nomatch h) fun _ h => nomatch h)

theorem push_eof (index : Option ℤ) (h : s.closed = false → P s.accepted.length) :
    Steady P s (s.push (.eof index)) := by
  unfold push
  split
  · exact .refl s
  · have same := (silent_scheduleTimeout (s := s)).trans (silent_normalizeIndex index)
    refine same.steady.trans (steady_close fun isOpen => ?_)
    have accepted := same.accepted
    rw [accepted]
    exact h (same.closed.symm.trans isOpen)

end GenAIStreamBuffer

/-! ## The mock run -/

/-- `runMockGenAIStream`: what the loop has still to push. -/
structure MockRun where
  buffer : GenAIStreamBuffer
  left : List GenAIStreamEvent

/-- The loop goes on, or the buffer does. -/
inductive MockEvent where
  | push
  | resume (i : Nat) (ok : Bool)
  | fireFlush
  | fireProgress
  | fireTimeout

namespace MockRun

def create (options : GenAIStreamBufferOptions) (content : JSString) (chunkSize : Option ℚ) :
    MockRun :=
  ⟨.create options, mockGenAIStream content chunkSize⟩

/-- What the buffer sees. -/
def bufferEvent (m : MockRun) : MockEvent → Option BufferEvent
  | .push => m.left.head?.map .push
  | .resume i ok => some (.resume i ok)
  | .fireFlush => some .fireFlush
  | .fireProgress => some .fireProgress
  | .fireTimeout => some .fireTimeout

def leftAfter (m : MockRun) : MockEvent → List GenAIStreamEvent
  | .push => m.left.tail
  | _ => m.left

def step (m : MockRun) (e : MockEvent) : Option MockRun := do
  some ⟨← m.buffer.step (← m.bufferEvent e), m.leftAfter e⟩

/-- The buffer takes none of the branches that break the end of a stream. -/
def Orderly (m : MockRun) (e : MockEvent) : Prop :=
  ∀ event ∈ m.bufferEvent e, m.buffer.Orderly event

instance (m : MockRun) (e : MockEvent) : Decidable (m.Orderly e) :=
  inferInstanceAs (Decidable (∀ event ∈ m.bufferEvent e, m.buffer.Orderly event))

/-! ## What the loop has fed in -/

variable {m m' : MockRun} {e : MockEvent} {stream : List GenAIStreamEvent}

/-- The data of the chunks of a stream. -/
def pieces (stream : List GenAIStreamEvent) : List JSString := stream.filterMap GenAIStreamEvent.data?

/-- The stream ends with its only `eof`, and pushes no error. -/
structure Regular (stream : List GenAIStreamEvent) : Prop where
  eof : ∀ index rest, .eof index :: rest <:+ stream → rest = []
  errorless : ∀ index, .error index ∉ stream

/-- What was accepted is the stream up to what is left. -/
structure Fed (stream : List GenAIStreamEvent) (m : MockRun) : Prop where
  left : m.left <:+ stream
  isOpen : m.buffer.closed = false →
    m.buffer.accepted.map (·.data) ++ pieces m.left = pieces stream
  within : m.buffer.accepted.map (·.data) <+: pieces stream
  asks : m.buffer.Asks (· = (pieces stream).length)

theorem Fed.steady (h : Fed stream m) {b : GenAIStreamBuffer}
    (steady : GenAIStreamBuffer.Steady (· = (pieces stream).length) m.buffer b)
    {left : List GenAIStreamEvent} (suffix : left <:+ stream)
    (same : m.buffer.closed = false → pieces left = pieces m.left) : Fed stream ⟨b, left⟩ where
  left := suffix
  isOpen later := by
    have before : m.buffer.closed = false := by
      cases closed : m.buffer.closed with
      | false => rfl
      | true =>
        rw [steady.closed closed] at later
        cases later
    change b.accepted.map _ ++ pieces left = _
    rw [steady.accepted, same before]
    exact h.isOpen before
  within := by
    change b.accepted.map _ <+: _
    rw [steady.accepted]
    exact h.within
  asks := steady.asks h.asks

theorem step_cases (h : m.step e = some m') : ∃ event, m.bufferEvent e = some event ∧
    m.buffer.step event = some m'.buffer ∧ m'.left = m.leftAfter e := by
  obtain ⟨event, seen, h⟩ := Option.bind_eq_some_iff.mp h
  obtain ⟨b, moved, h⟩ := Option.bind_eq_some_iff.mp h
  cases h
  exact ⟨event, seen, moved, rfl⟩

/-- The loop pushes the next event. -/
theorem Fed.push (h : Fed stream m) (regular : Regular stream) {next : GenAIStreamEvent}
    {rest : List GenAIStreamEvent} (left : m.left = next :: rest) :
    Fed stream ⟨m.buffer.push next, rest⟩ := by
  have at_ : next :: rest <:+ stream := left ▸ h.left
  have suffix : rest <:+ stream := (List.suffix_cons next rest).trans at_
  cases next with
  | chunk event =>
    cases closed : m.buffer.closed with
    | true =>
      have same : m.buffer.push (.chunk event) = m.buffer := by
        unfold GenAIStreamBuffer.push
        rw [if_pos closed]
      rw [same]
      exact h.steady (.refl _) suffix fun isOpen => by rw [closed] at isOpen; cases isOpen
    | false =>
      obtain ⟨chunk, data, steady⟩ := GenAIStreamBuffer.push_chunk
        (P := (· = (pieces stream).length)) event closed
      have cut : (m.buffer.accepted ++ [chunk]).map (·.data) ++ pieces rest = pieces stream := by
        rw [← h.isOpen closed, left, List.map_append, List.append_assoc, List.map_singleton, data]
        rfl
      have fed : Fed stream ⟨{ m.buffer with accepted := m.buffer.accepted ++ [chunk] }, rest⟩ :=
        ⟨suffix, fun _ => cut, ⟨_, cut⟩, ⟨h.asks.tasks, h.asks.emitted⟩⟩
      exact fed.steady steady suffix fun _ => rfl
  | eof index =>
    obtain rfl := regular.eof index rest at_
    refine h.steady (GenAIStreamBuffer.push_eof index fun isOpen => ?_) suffix fun _ => ?_
    · have all := h.isOpen isOpen
      rw [left] at all
      rw [← all]
      simp [pieces, GenAIStreamEvent.data?]
    · rw [left]
      rfl
  | error index => exact absurd (at_.subset List.mem_cons_self) (regular.errorless index)
  | other index =>
    refine h.steady (GenAIStreamBuffer.push_other index) suffix fun _ => ?_
    rw [left]
    rfl

theorem fed_step (h : Fed stream m) (regular : Regular stream) (hstep : m.step e = some m') :
    Fed stream m' := by
  obtain ⟨b', left'⟩ := m'
  obtain ⟨event, seen, moved, rest⟩ := step_cases hstep
  dsimp only at moved rest
  subst rest
  cases e with
  | push =>
    obtain ⟨next, first, rfl⟩ := Option.map_eq_some_iff.mp seen
    obtain ⟨rest, left⟩ : ∃ rest, m.left = next :: rest := by
      cases left : m.left with
      | nil =>
        rw [left] at first
        cases first
      | cons a rest =>
        rw [left] at first
        cases first
        exact ⟨rest, rfl⟩
    obtain rfl := Option.some.inj moved
    rw [leftAfter, left]
    exact h.push regular left
  | resume i ok =>
    cases seen
    obtain ⟨task, found, -, rfl⟩ := GenAIStreamBuffer.step_resume moved
    have taken : GenAIStreamBuffer.Steady (· = (pieces stream).length) m.buffer
        { m.buffer with tasks := m.buffer.tasks.eraseIdx i } :=
      ⟨rfl, id, fun asks =>
        ⟨fun t ht => asks.tasks t (List.mem_of_mem_eraseIdx ht), asks.emitted⟩⟩
    refine h.steady (taken.trans (GenAIStreamBuffer.steady_resume fun n hn => ?_)) h.left fun _ => rfl
    exact h.asks.tasks task (List.mem_of_getElem? found) n hn
  | fireFlush =>
    cases seen
    obtain rfl := GenAIStreamBuffer.step_fireFlush moved
    have fired : GenAIStreamBuffer.Steady (· = (pieces stream).length) m.buffer
        { m.buffer with timer := some false } := ⟨rfl, id, fun asks => ⟨asks.tasks, asks.emitted⟩⟩
    exact h.steady (fired.trans (GenAIStreamBuffer.steady_flush (by simp))) h.left fun _ => rfl
  | fireProgress =>
    cases seen
    obtain rfl := GenAIStreamBuffer.step_fireProgress moved
    refine h.steady ?_ h.left fun _ => rfl
    unfold GenAIStreamBuffer.fireProgress
    split
    · exact ⟨rfl, id, fun asks => ⟨asks.tasks, asks.emitted⟩⟩
    · exact GenAIStreamBuffer.steady_emitProgress rfl
  | fireTimeout =>
    cases seen
    obtain rfl := GenAIStreamBuffer.step_fireTimeout moved
    have fired : GenAIStreamBuffer.Steady (· = (pieces stream).length) m.buffer
        { m.buffer with timeoutTimer := some false } :=
      ⟨rfl, id, fun asks => ⟨asks.tasks, asks.emitted⟩⟩
    exact h.steady (fired.trans GenAIStreamBuffer.steady_reportError) h.left fun _ => rfl

theorem pieces_mock (content : JSString) (chunkSize : Option ℚ) :
    (pieces (mockGenAIStream content chunkSize)).flatten = content := by
  have chunks (l : List JSString) : pieces ((l.map fun data =>
      GenAIStreamEvent.chunk ⟨none, data, none, none, none⟩) ++ [.eof none]) = l := by
    induction l with
    | nil => rfl
    | cons d l ih => exact congrArg (d :: ·) ih
  have begin_ : pieces (mockGenAIStream content chunkSize) = pieces (((mockPieces content
      (max 1 (chunkSize.getD 16)) content.length 0).map fun data =>
        GenAIStreamEvent.chunk ⟨none, data, none, none, none⟩) ++ [.eof none]) := rfl
  rw [begin_, chunks, mockPieces_flatten content (le_max_left 1 _) content.length (le_refl 0) (by simp)]
  simp

theorem regular_mock (content : JSString) (chunkSize : Option ℚ) :
    Regular (mockGenAIStream content chunkSize) := by
  have calm : ∀ index, (.eof index : GenAIStreamEvent) ∉
      ((.other none : GenAIStreamEvent) :: ((mockPieces content (max 1 (chunkSize.getD 16))
        content.length 0).map fun data => .chunk ⟨none, data, none, none, none⟩)) := by
    intro index hmem
    simp at hmem
  refine ⟨fun index rest h => ?_, fun index h => ?_⟩
  · obtain ⟨front, cut⟩ := h
    rcases List.eq_nil_or_concat rest with rfl | ⟨init, last, rfl⟩
    · rfl
    · rw [mockGenAIStream, List.concat_eq_append, ← List.cons_append, ← List.append_assoc] at cut
      obtain ⟨same, -⟩ := List.append_inj' cut rfl
      exact absurd (same ▸ List.mem_append_right front List.mem_cons_self) (calm index)
  · simp [mockGenAIStream] at h

theorem fed_create (options : GenAIStreamBufferOptions) (content : JSString)
    (chunkSize : Option ℚ) :
    Fed (mockGenAIStream content chunkSize) (create options content chunkSize) where
  left := List.suffix_refl _
  isOpen _ := rfl
  within := List.nil_prefix
  asks := ⟨fun _ ht => (nomatch ht), fun _ _ h => (nomatch h)⟩

end MockRun

namespace GenAIStreamBuffer

theorem ending_create (options : GenAIStreamBufferOptions) : (create options).Ending :=
  ⟨⟨rfl, fun _ hf => (nomatch hf), rfl, rfl⟩, fun _ _ h => (nomatch h),
    fun before e after h => by simp [create] at h, fun _ ht => (nomatch ht),
    fun before i n after h => by simp [create] at h⟩

end GenAIStreamBuffer

/-- Up to its end a stream is told as text. -/
theorem tokens_of_live {l : List Emission} (live : ∀ e ∈ l, e.terminal = false) :
    l.filterMap Emission.token = ((l.filterMap Emission.flush?).map (·.data)).map some := by
  induction l with
  | nil => rfl
  | cons e l ih =>
    have rest := ih fun k hk => live k (List.mem_cons_of_mem _ hk)
    cases e with
    | flush f =>
      change some f.data :: l.filterMap Emission.token = some f.data :: _
      rw [rest]
    | eof i n => exact absurd (live _ List.mem_cons_self) (by simp [Emission.terminal])
    | _ => exact rest

namespace MockRun

open GenAIStreamBuffer (sixCall sixMessages)

def sixLetters : List MockEvent :=
  [.push, .resume 0 true, .push, .push, .push, .resume 0 true, .resume 0 true, .resume 0 true]

end MockRun

end LemonModel
