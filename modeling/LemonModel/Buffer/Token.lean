import LemonModel.Base.Run
import LemonModel.Text.Utf16

/-!
# The token buffer

`TokenBuffer`: tokens wait until there are enough of them, or a timer fires, and go to a
callback that takes its time. A `close` that meets a flush in progress does not wait for
what is queued behind it.
-/

namespace LemonModel

open Text

inductive TokenFlushStrategy where
  | time
  | size
  deriving DecidableEq

structure TokenBufferOptions where
  flushStrategy : Option TokenFlushStrategy
  maxTokensForTime : Option ℚ
  bufferSize : Option ℚ
  useBuffer : Option Bool

/-- What waits: for the callback, or with a promise that is fulfilled. A flush has the number
of tokens that had been added when the `close` was called that waits for it, if one does. -/
inductive TokenTask where
  | direct
  | flushing (asked : Option Nat)
  | closing (asked : Nat)
  deriving DecidableEq

/-- The handle of a timer that fired stays until it is cleared. `added`, `calls` and `closes`
are a record: every token, the tokens of every content the callback was called with, and how
many tokens had been added at each `close` that has resolved. -/
structure TokenBuffer where
  flushStrategy : TokenFlushStrategy
  maxTokensForTime : ℚ
  bufferSize : ℚ
  useBuffer : Bool
  tokens : List JSString
  timer : Option Bool
  isProcessing : Bool
  tasks : List TokenTask
  added : List JSString
  calls : List (List JSString)
  closes : List Nat

namespace TokenBuffer

def create (options : TokenBufferOptions) : TokenBuffer where
  flushStrategy := options.flushStrategy.getD .size
  maxTokensForTime := options.maxTokensForTime.getD 30
  bufferSize := options.bufferSize.getD 10
  useBuffer := options.useBuffer.getD true
  tokens := []
  timer := none
  isProcessing := false
  tasks := []
  added := []
  calls := []
  closes := []

variable (s : TokenBuffer)

/-- `scheduleTimeFlush`, `scheduleMaxWaitFlush` -/
def schedule : TokenBuffer := if s.timer.isSome then s else { s with timer := some true }

def clearTimer : TokenBuffer := { s with timer := none }

/-- A `close` that awaited a flush goes on, if one did. -/
def afterFlush : Option Nat → TokenBuffer
  | some asked => { s with tasks := s.tasks ++ [.closing asked] }
  | none => s

/-- `flush` up to its call of the callback. -/
def flush (asked : Option Nat) : TokenBuffer :=
  if s.isProcessing || s.tokens.isEmpty then s.afterFlush asked
  else
    { s.clearTimer with
      isProcessing := true
      tokens := []
      calls := s.calls ++ [s.tokens]
      tasks := s.tasks ++ [.flushing asked] }

/-- How many tokens make `add` flush. -/
def limit : ℚ :=
  match s.flushStrategy with
  | .size => s.bufferSize
  | .time => s.maxTokensForTime

def add (token : JSString) : TokenBuffer :=
  let s := { s with added := s.added ++ [token] }
  if !s.useBuffer then { s with calls := s.calls ++ [[token]], tasks := s.tasks ++ [.direct] }
  else
    let s := { s with tokens := s.tokens ++ [token] }
    if s.limit ≤ s.tokens.length then s.flush none else s.schedule

def close : TokenBuffer := s.flush (some s.added.length)

/-- A task goes on. -/
def resume : TokenTask → TokenBuffer
  | .direct => s
  | .flushing asked => { s with isProcessing := false }.afterFlush asked
  | .closing asked => { s.clearTimer with closes := s.closes ++ [asked] }

inductive Event where
  | add (token : JSString)
  | flush
  | close
  | fire
  | resume (i : Nat)

/-- One event; `none` where it cannot happen. -/
def step (s : TokenBuffer) : Event → Option TokenBuffer
  | .add token => some (s.add token)
  | .flush => some (s.flush none)
  | .close => some s.close
  | .fire => if s.timer = some true then some ({ s with timer := some false }.flush none) else none
  | .resume i => (s.tasks[i]?).map { s with tasks := s.tasks.eraseIdx i }.resume

/-- What the callback was called with. -/
def contents : List JSString := s.calls.map List.flatten

variable {s} {s' : TokenBuffer} {e : Event} {es : List Event}

/-! ## What a flush does -/

/-- A `close` that has resolved or will, with how many tokens had been added when it was
called. -/
def Asks (s : TokenBuffer) (asked : Nat) : Prop :=
  asked ∈ s.closes ∨ .closing asked ∈ s.tasks ∨ .flushing (some asked) ∈ s.tasks

structure Flushed (asked : Option Nat) (s s' : TokenBuffer) : Prop where
  useBuffer : s'.useBuffer = s.useBuffer
  added : s'.added = s.added
  passed : s'.calls.flatten ++ s'.tokens = s.calls.flatten ++ s.tokens
  tokens : s'.tokens = s.tokens ∧ (s.isProcessing = true ∨ s.tokens = []) ∨ s'.tokens = []
  asks : ∀ a, s'.Asks a → s.Asks a ∨ asked = some a

theorem flushed (s : TokenBuffer) (asked : Option Nat) : Flushed asked s (s.flush asked) := by
  unfold flush
  split
  · rename_i idle
    have idle : s.isProcessing = true ∨ s.tokens = [] := by simpa using idle
    cases asked with
    | none => exact ⟨rfl, rfl, rfl, .inl ⟨rfl, idle⟩, fun a h => .inl h⟩
    | some asked =>
      refine ⟨rfl, rfl, rfl, .inl ⟨rfl, idle⟩, fun a h => ?_⟩
      simp only [Asks, afterFlush, List.mem_append, List.mem_singleton, TokenTask.closing.injEq,
        reduceCtorEq, or_false] at h ⊢
      rcases h with h | (h | rfl) | h
      · exact .inl (.inl h)
      · exact .inl (.inr (.inl h))
      · exact .inr rfl
      · exact .inl (.inr (.inr h))
  · refine ⟨rfl, rfl, by simp, .inr rfl, fun a h => ?_⟩
    simp only [Asks, clearTimer, List.mem_append, List.mem_singleton, TokenTask.flushing.injEq,
      reduceCtorEq, or_false] at h ⊢
    rcases h with h | h | h | h
    · exact .inl (.inl h)
    · exact .inl (.inr (.inl h))
    · exact .inl (.inr (.inr h))
    · exact .inr h.symm

/-! ## Nothing is passed twice -/

/-- The tokens that were passed, and then those that wait, are the tokens added. -/
structure Conserved (s : TokenBuffer) : Prop where
  tokens : s.calls.flatten ++ s.tokens = s.added
  direct : s.useBuffer = false → s.tokens = []

theorem Flushed.conserved {asked : Option Nat} (h : Flushed asked s s') (conserved : s.Conserved) :
    s'.Conserved where
  tokens := by rw [h.passed, h.added, conserved.tokens]
  direct off := by
    rw [h.useBuffer] at off
    rcases h.tokens with ⟨same, -⟩ | none_
    · rw [same, conserved.direct off]
    · exact none_

/-- What `add` does. -/
structure Added (token : JSString) (s s' : TokenBuffer) : Prop where
  conserved : s.Conserved → s'.Conserved
  added : s'.added = s.added ++ [token]
  asks : ∀ a, s'.Asks a → s.Asks a

theorem added_add (s : TokenBuffer) (token : JSString) : Added token s (s.add token) := by
  unfold add
  dsimp only
  split
  · rename_i off
    have off : s.useBuffer = false := by simpa using off
    refine ⟨fun h => ⟨?_, fun _ => h.direct off⟩, rfl, fun a h => ?_⟩
    · show (s.calls ++ [[token]]).flatten ++ s.tokens = s.added ++ [token]
      rw [← h.tokens, h.direct off]
      simp
    · simpa [Asks] using h
  · rename_i on
    have on : s.useBuffer = true := by simpa using on
    have queued : s.Conserved → ({ s with
        added := s.added ++ [token], tokens := s.tokens ++ [token] } : TokenBuffer).Conserved := by
      refine fun h => ⟨?_, fun off => ?_⟩
      · show s.calls.flatten ++ (s.tokens ++ [token]) = s.added ++ [token]
        rw [← List.append_assoc, h.tokens]
      · change s.useBuffer = false at off
        rw [on] at off
        cases off
    split
    · have flush := flushed ({ s with
        added := s.added ++ [token], tokens := s.tokens ++ [token] } : TokenBuffer) none
      refine ⟨flush.conserved ∘ queued, flush.added, fun a h => ?_⟩
      rcases flush.asks a h with asks | none_
      · exact asks
      · cases none_
    · unfold schedule
      split
      · exact ⟨queued, rfl, fun _ h => h⟩
      · exact ⟨fun h => ⟨(queued h).tokens, (queued h).direct⟩, rfl, fun _ h => h⟩

/-- A task that goes on passes nothing. -/
theorem resumed {i : Nat} {task : TokenTask} (found : s.tasks[i]? = some task) :
    let s' := { s with tasks := s.tasks.eraseIdx i }.resume task
    s'.useBuffer = s.useBuffer ∧ s'.added = s.added ∧ s'.calls = s.calls ∧ s'.tokens = s.tokens ∧
      ∀ a, s'.Asks a → s.Asks a := by
  have mem := List.mem_of_getElem? found
  have less : ∀ {t}, t ∈ s.tasks.eraseIdx i → t ∈ s.tasks := List.mem_of_mem_eraseIdx
  have kept : ∀ a, ({ s with tasks := s.tasks.eraseIdx i } : TokenBuffer).Asks a → s.Asks a := by
    rintro a (h | h | h)
    · exact .inl h
    · exact .inr (.inl (less h))
    · exact .inr (.inr (less h))
  cases task with
  | direct => exact ⟨rfl, rfl, rfl, rfl, kept⟩
  | flushing asked =>
    cases asked with
    | none => exact ⟨rfl, rfl, rfl, rfl, kept⟩
    | some asked =>
      refine ⟨rfl, rfl, rfl, rfl, fun a h => ?_⟩
      simp only [Asks, resume, afterFlush, List.mem_append, List.mem_singleton,
        TokenTask.closing.injEq, reduceCtorEq, or_false] at h
      rcases h with h | (h | rfl) | h
      · exact .inl h
      · exact .inr (.inl (less h))
      · exact .inr (.inr mem)
      · exact .inr (.inr (less h))
  | closing asked =>
    refine ⟨rfl, rfl, rfl, rfl, fun a h => ?_⟩
    simp only [Asks, resume, clearTimer, List.mem_append, List.mem_singleton] at h
    rcases h with (h | rfl) | h | h
    · exact .inl h
    · exact .inr (.inl mem)
    · exact .inr (.inl (less h))
    · exact .inr (.inr (less h))

theorem conserved_step (h : s.Conserved) (hstep : s.step e = some s') : s'.Conserved := by
  cases e with
  | add token =>
    obtain rfl := Option.some.inj hstep
    exact (added_add s token).conserved h
  | flush =>
    obtain rfl := Option.some.inj hstep
    exact (flushed s none).conserved h
  | close =>
    obtain rfl := Option.some.inj hstep
    exact (flushed s _).conserved h
  | fire =>
    simp only [step] at hstep
    split at hstep
    · obtain rfl := Option.some.inj hstep
      exact (flushed _ none).conserved ⟨h.tokens, h.direct⟩
    · cases hstep
  | resume i =>
    obtain ⟨task, found, rfl⟩ := Option.map_eq_some_iff.mp hstep
    obtain ⟨useBuffer, added, calls, tokens, -⟩ := resumed found
    refine ⟨?_, fun off => ?_⟩
    · rw [calls, tokens, added, h.tokens]
    · rw [useBuffer] at off
      rw [tokens, h.direct off]

/-! ## What a close leaves behind -/

/-- Where no token was added since a `close` was called, none waits. -/
def Prompt (s : TokenBuffer) : Prop :=
  ∀ asked, s.Asks asked → asked ≤ s.added.length ∧ (asked = s.added.length → s.tokens = [])

/-- A `close` meets no flush in progress with tokens queued behind it. -/
def Unhurried (s : TokenBuffer) : Event → Prop
  | .close => s.isProcessing = true → s.tokens = []
  | _ => True

theorem Flushed.prompt (h : Flushed none s s') (prompt : s.Prompt) : s'.Prompt := by
  intro a asks
  rcases h.asks a asks with asks | none_
  · obtain ⟨le, empty⟩ := prompt a asks
    rw [h.added]
    refine ⟨le, fun eq => ?_⟩
    rcases h.tokens with ⟨same, -⟩ | none_
    · rw [same, empty eq]
    · exact none_
  · cases none_

theorem prompt_step (h : s.Prompt) (unhurried : Unhurried s e) (hstep : s.step e = some s') :
    s'.Prompt := by
  cases e with
  | add token =>
    obtain rfl := Option.some.inj hstep
    have added := added_add s token
    intro a asks
    have le := (h a (added.asks a asks)).1
    rw [added.added, List.length_append, List.length_singleton]
    exact ⟨by omega, fun eq => by omega⟩
  | flush =>
    obtain rfl := Option.some.inj hstep
    exact (flushed s none).prompt h
  | close =>
    obtain rfl := Option.some.inj hstep
    have flush := flushed s (some s.added.length)
    intro a asks
    show a ≤ (s.flush (some s.added.length)).added.length ∧ _
    rw [flush.added]
    rcases flush.asks a asks with before | now
    · obtain ⟨le, empty⟩ := h a before
      refine ⟨le, fun eq => ?_⟩
      rcases flush.tokens with ⟨same, -⟩ | none_
      · exact same.trans (empty (eq.trans (congrArg List.length flush.added)))
      · exact none_
    · obtain rfl := Option.some.inj now
      refine ⟨le_rfl, fun _ => ?_⟩
      rcases flush.tokens with ⟨same, processing | empty⟩ | none_
      · exact same.trans (unhurried processing)
      · exact same.trans empty
      · exact none_
  | fire =>
    simp only [step] at hstep
    split at hstep
    · obtain rfl := Option.some.inj hstep
      exact (flushed _ none).prompt h
    · cases hstep
  | resume i =>
    obtain ⟨task, found, rfl⟩ := Option.map_eq_some_iff.mp hstep
    obtain ⟨-, added, -, tokens, asked⟩ := resumed found
    intro a asks
    rw [added, tokens]
    exact h a (asked a asks)

/-- Once a `close` has resolved, with no token added since it was called, every token was
passed. -/
def Delivered (s : TokenBuffer) : Prop :=
  ∀ asked ∈ s.closes, asked = s.added.length → s.calls.flatten = s.added

theorem conserved_run {options : TokenBufferOptions} (h : exec step (create options) es = some s) :
    s.Conserved :=
  exec_invariant Conserved (fun _ _ _ => conserved_step) h ⟨rfl, fun _ => rfl⟩

/-- A `close` that is turned away, and goes on at once. -/
theorem close_strands (conserved : s.Conserved) (hurried : ¬Unhurried s .close) :
    ∃ s', exec step s [.close, .resume s.tasks.length] = some s' ∧ ¬s'.Delivered := by
  obtain ⟨processing, queued⟩ := Classical.not_imp.mp hurried
  have closed : s.close = { s with tasks := s.tasks ++ [.closing s.added.length] } := by
    rw [close, flush, if_pos (by simp [processing])]
    rfl
  have goesOn : step s.close (.resume s.tasks.length) =
      some { s.clearTimer with closes := s.closes ++ [s.added.length] } := by
    rw [closed]
    simp [step, resume, clearTimer, List.eraseIdx_append_of_length_le]
  have both : exec step s [.close, .resume s.tasks.length] =
      some { s.clearTimer with closes := s.closes ++ [s.added.length] } := by
    rw [exec, show step s .close = some s.close from rfl, Option.bind_some, exec, goesOn]
    rfl
  refine ⟨_, both, fun delivered => queued ?_⟩
  have all : s.calls.flatten = s.added := by
    apply delivered s.added.length _ rfl
    exact List.mem_append_right _ (List.mem_singleton_self _)
  have tokens := conserved.tokens
  rwa [all, List.append_right_eq_self] at tokens

/-- **What the buffer keeps, and what a close loses.** The contents are the tokens added, in
order, up to those that wait. If no `close` meets a flush in progress with tokens queued
behind it, every token was passed once one has resolved; and one that does, and goes on at
once, leaves them. -/
theorem token_buffer_delivers {options : TokenBufferOptions}
    (h : exec step (create options) es = some s) :
    (s.calls.flatten ++ s.tokens = s.added ∧
        s.contents.flatten ++ s.tokens.flatten = s.added.flatten) ∧
      (Run step Unhurried (create options) es s → s.Delivered) ∧
      (¬Unhurried s .close →
        ∃ s', exec step s [.close, .resume s.tasks.length] = some s' ∧ ¬s'.Delivered) := by
  have conserved := conserved_run h
  refine ⟨⟨conserved.tokens, ?_⟩, fun run => ?_, close_strands conserved⟩
  · rw [← conserved.tokens, List.flatten_append, contents, List.flatten_flatten]
  · have prompt := run.invariant Prompt (fun _ _ _ => prompt_step) fun _ asks => by
      rcases asks with h | h | h <;> cases h
    intro asked resolved now
    have tokens := conserved.tokens
    rwa [(prompt asked (.inl resolved)).2 now, List.append_nil] at tokens

/-! A close after a flush, and one that is called during it. -/

def small : TokenBufferOptions := ⟨none, none, some 1, none⟩

instance (s : TokenBuffer) (e : Event) : Decidable (Unhurried s e) := by
  unfold Unhurried
  split <;> infer_instance

def patient : List Event :=
  [.add (lit "a"), .add (lit "b"), .resume 0, .close, .resume 0, .resume 0]

theorem token_buffer_delivers_patient : ∃ s, exec step (create small) patient = some s ∧
    s.closes = [2] ∧ s.calls.flatten = s.added := by
  obtain ⟨s, run⟩ := Run.of_allGood step Unhurried (create small) patient (by decide +kernel)
  have closes : s.closes = [2] := run.read (f := closes) (by decide +kernel)
  have length : s.added.length = 2 := run.read (f := fun s => s.added.length) (by decide +kernel)
  refine ⟨s, run.exec_eq, closes, (token_buffer_delivers run.exec_eq).2.1 run 2 ?_ length.symm⟩
  rw [closes]
  exact List.mem_singleton_self 2

def hasty : List Event := [.add (lit "a"), .add (lit "b"), .close, .resume 1, .resume 0]

/-- The second token waits behind the flush of the first, and nothing is left to flush it. -/
theorem hurried_close_loses_token : ∃ s, exec step (create small) hasty = some s ∧
    s.closes = [2] ∧ s.contents = [lit "a"] ∧ s.tokens = [lit "b"] ∧ s.timer = none ∧
    s.tasks = [] ∧ ¬s.Delivered := by
  obtain ⟨s, run⟩ := Run.of_allGood step (fun _ _ => True) (create small) hasty (by decide +kernel)
  have closes : s.closes = [2] := run.read (f := closes) (by decide +kernel)
  have added : s.added.length = 2 := run.read (f := fun s => s.added.length) (by decide +kernel)
  have passed : s.calls.flatten.length = 1 :=
    run.read (f := fun s => s.calls.flatten.length) (by decide +kernel)
  refine ⟨s, run.exec_eq, closes, run.read (f := contents) (by decide +kernel),
    run.read (f := tokens) (by decide +kernel), run.read (f := timer) (by decide +kernel),
    run.read (f := tasks) (by decide +kernel), fun delivered => ?_⟩
  have all := delivered 2 (by rw [closes]; exact List.mem_singleton_self 2) added.symm
  rw [all, added] at passed
  cases passed

end TokenBuffer

end LemonModel
