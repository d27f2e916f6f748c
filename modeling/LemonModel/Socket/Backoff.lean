import Mathlib.Algebra.Order.Ring.Rat
import Mathlib.Data.NNRat.Defs
import LemonModel.Socket.Final

/-!
# Backoff and retries

Between two events a decorator either watches its network or waits for its one
timer, and what it counts is what it did (`Steady`), if no candidate refuses a
subscription, no handler throws while a failure is reported, and `close` is not
called from inside an attempt.
-/

namespace LemonModel.Reconnecting

open Text

/-- The failed attempts since the last success. -/
def failures : List Effect → Nat
  | [] => 0
  | .succeeded :: _ => 0
  | .failed :: older => failures older + 1
  | _ :: older => failures older

/-- The calls of the factory since the last success. -/
def factoryCalls : List Effect → Nat
  | [] => 0
  | .succeeded :: _ => 0
  | .factory :: older => factoryCalls older + 1
  | _ :: older => factoryCalls older

/-- `min(baseMs * factor ** k, maxMs)`. -/
def ReconnectOptions.delay (options : ReconnectOptions) (k : Nat) : ℚ≥0 :=
  min (options.baseMs * options.factor ^ k) options.maxMs

def Frame.isBusy (f : Frame) : Bool := f.isAttempt || f.isFailing

/-- An exception in this call ends an attempt, or the report of its failure. -/
def Frame.isFragile : Frame → Bool
  | .factory => false
  | f => f.isBusy

/-- No candidate throws when it is subscribed or configured, no error handler
throws while a failed attempt is reported, and `close` is not called from inside
any of these, nor from inside the factory. -/
def Unbroken (c : Config) : Event → Prop
  | .close => ∀ f ∈ c.stack, f.isBusy = false
  | .reply (.throws _) => ∀ f ∈ c.stack.head?, f.isFragile = false
  | _ => True

instance (c : Config) (e : Event) : Decidable (Unbroken c e) := by
  rcases e with ⟨⟩
  case reply r => rcases r with ⟨⟩ <;> dsimp only [Unbroken] <;> infer_instance
  all_goals dsimp only [Unbroken]; infer_instance

/-! ## The invariant -/

/-- The candidate of an attempt is subscribed as far as the attempt got. -/
def Attached (s : ReconnectingNetwork) : Frame → Prop
  | .subscribeMessage _ => s.inner.message
  | .subscribeError _ => s.inner.message ∧ s.inner.error
  | .configure _ => s.inner.message ∧ s.inner.error
  | _ => True

structure Steady (options : ReconnectOptions) (s : ReconnectingNetwork) (stack : List Frame) :
    Prop where
  fixed : s.options = options
  counted : s.retryCount = failures s.log
  delay : s.delayMs = s.options.delay s.retryCount
  within : ∀ m, s.options.maxRetries = some m → factoryCalls s.log ≤ m
  /-- every call of the factory has come to an end, or one has not -/
  rested : s.phase = .connected ∨ (s.phase = .backoff ∧ ∀ f ∈ stack, f.isAttempt = false) ∨
    (∃ f ∈ stack, f.isFailing) → factoryCalls s.log = s.retryCount
  trying : (∃ f ∈ stack, f.isAttempt) ∨ (s.phase = .connecting ∧ ∀ f ∈ stack, f.isFailing = false) →
    factoryCalls s.log = s.retryCount + 1
  live : ∀ f ∈ stack, f.isBusy → s.phase ≠ .closed
  armed : s.phase = .backoff → s.timers ≠ [] ∨ ∃ f ∈ stack, f.isBusy
  watched : s.phase ≠ .closed → s.watchdog = true
  attached : ∀ f ∈ stack, Attached s f
  subscribed : s.phase = .connecting → (∀ f ∈ stack, f.isFailing = false) →
    s.inner.message ∧ s.inner.error
  reset : s.phase = .connected → s.retryCount = 0

/-- The two states differ in nothing `Steady` reads. -/
structure Alike (s s' : ReconnectingNetwork) : Prop where
  options : s'.options = s.options
  phase : s'.phase = s.phase
  retryCount : s'.retryCount = s.retryCount
  delayMs : s'.delayMs = s.delayMs
  timers : s'.timers = s.timers
  watchdog : s'.watchdog = s.watchdog
  message : s'.inner.message = s.inner.message
  error : s'.inner.error = s.inner.error
  failures : failures s'.log = failures s.log
  factoryCalls : factoryCalls s'.log = factoryCalls s.log

variable {options : ReconnectOptions} {s s' : ReconnectingNetwork} {stack rest : List Frame}
  {f : Frame} {c c' : Config} {e : Event}

theorem Steady.alike (h : Steady options s stack) (alike : Alike s s') :
    Steady options s' stack := by
  obtain ⟨options, phase, retryCount, delayMs, timers, watchdog, message, error, fails,
    calls⟩ := alike
  refine ⟨options.trans h.fixed, ?_, ?_, ?_, ?_, ?_, ?_, ?_, ?_, fun f hf => ?_, ?_, ?_⟩
  · rw [retryCount, fails]
    exact h.counted
  · rw [delayMs, options, retryCount]
    exact h.delay
  · rw [options, calls]
    exact h.within
  · rw [phase, calls, retryCount]
    exact h.rested
  · rw [phase, calls, retryCount]
    exact h.trying
  · rw [phase]
    exact h.live
  · rw [phase, timers]
    exact h.armed
  · rw [phase, watchdog]
    exact h.watched
  · have := h.attached f hf
    cases f <;> simp_all [Attached]
  · rw [phase, message, error]
    exact h.subscribed
  · rw [phase, retryCount]
    exact h.reset

theorem Steady.update (h : Steady options s stack) {n : Nat} {i : Inner}
    (message : i.message = (s.networks n).message) (error : i.error = (s.networks n).error) :
    Steady options (s.update n i) stack := by
  refine h.alike ⟨rfl, rfl, rfl, rfl, rfl, rfl, ?_, ?_, rfl, rfl⟩ <;>
    simp only [ReconnectingNetwork.update, ReconnectingNetwork.inner] <;> split <;> simp_all

/-- The stack changes, and the attempt on it and its failure do not. -/
theorem Steady.restack (h : Steady options s stack) {stack' : List Frame}
    (busy : ∀ f : Frame, f.isBusy → (f ∈ stack' ↔ f ∈ stack)) : Steady options s stack' := by
  have attempts : ∀ f : Frame, f.isAttempt = true → (f ∈ stack' ↔ f ∈ stack) := fun f hf =>
    busy f (by rw [Frame.isBusy, hf, Bool.true_or])
  have fails : ∀ f : Frame, f.isFailing = true → (f ∈ stack' ↔ f ∈ stack) := fun f hf =>
    busy f (by rw [Frame.isBusy, hf, Bool.or_true])
  have noAttempt : (∀ f ∈ stack', f.isAttempt = false) ↔ ∀ f ∈ stack, f.isAttempt = false := by
    refine forall_congr' fun f => ?_
    cases ha : f.isAttempt <;> simp [ha, attempts]
  have noFail : (∀ f ∈ stack', f.isFailing = false) ↔ ∀ f ∈ stack, f.isFailing = false := by
    refine forall_congr' fun f => ?_
    cases ha : f.isFailing <;> simp [ha, fails]
  have someAttempt : (∃ f ∈ stack', f.isAttempt = true) ↔ ∃ f ∈ stack, f.isAttempt = true :=
    exists_congr fun f => and_congr_left fun ha => attempts f ha
  have someFail : (∃ f ∈ stack', f.isFailing = true) ↔ ∃ f ∈ stack, f.isFailing = true :=
    exists_congr fun f => and_congr_left fun ha => fails f ha
  have someBusy : (∃ f ∈ stack', f.isBusy = true) ↔ ∃ f ∈ stack, f.isBusy = true :=
    exists_congr fun f => and_congr_left fun ha => busy f ha
  refine { h with
    rested := ?_, trying := ?_, live := fun f hf hb => h.live f ((busy f hb).mp hf) hb, armed := ?_,
    attached := fun f hf => ?_, subscribed := ?_ }
  · rw [noAttempt, someFail]
    exact h.rested
  · rw [someAttempt, noFail]
    exact h.trying
  · rw [someBusy]
    exact h.armed
  · cases ha : f.isAttempt with
    | true => exact h.attached f ((attempts f ha).mp hf)
    | false => cases f <;> trivial
  · rw [noFail]
    exact h.subscribed

theorem Steady.push (h : Steady options s stack) (idle : f.isBusy = false) :
    Steady options s (f :: stack) := by
  refine h.restack fun g hg => ?_
  rw [List.mem_cons, or_iff_right]
  rintro rfl
  rw [idle] at hg
  cases hg

theorem Steady.pop (h : Steady options s (f :: rest)) (idle : f.isBusy = false) :
    Steady options s rest := by
  refine h.restack fun g hg => ?_
  rw [List.mem_cons, or_iff_right]
  rintro rfl
  rw [idle] at hg
  cases hg

/-- What a method leaves behind on top of `stack`. -/
def Steadies (options : ReconnectOptions) (stack : List Frame)
    (r : ReconnectingNetwork × Option Frame) : Prop :=
  Steady options r.1 (r.2.toList ++ stack)

theorem delay_zero (options : ReconnectOptions) (h : options.baseMs ≤ options.maxMs) :
    options.delay 0 = options.baseMs := by
  rw [ReconnectOptions.delay, pow_zero, mul_one, min_eq_left h]

/-- One more failure: capping the last delay again is capping the next one. -/
theorem delay_succ (options : ReconnectOptions) (h : options.baseMs ≤ options.maxMs) (k : Nat) :
    min (options.delay k * options.factor) options.maxMs = options.delay (k + 1) := by
  have step : options.baseMs * options.factor ^ (k + 1) =
      options.baseMs * options.factor ^ k * options.factor := by rw [pow_succ, mul_assoc]
  simp only [ReconnectOptions.delay]
  rw [step]
  rcases le_total (options.baseMs * options.factor ^ k) options.maxMs with below | above
  · rw [min_eq_left below]
  · rw [min_eq_right above]
    -- a factor below one never passes the cap, so here it is at least one
    rcases le_total 1 options.factor with grows | shrinks
    · have high : options.maxMs ≤ options.maxMs * options.factor := le_mul_of_one_le_right' grows
      rw [min_eq_right high, min_eq_right (high.trans (mul_le_mul_left above _))]
    · have low : options.baseMs * options.factor ^ k ≤ options.baseMs :=
        mul_le_of_le_one_right' (pow_le_one' shrinks k)
      have base : options.baseMs * options.factor ^ k = options.maxMs :=
        le_antisymm (low.trans h) above
      rw [base]

/-! ## The methods -/

theorem attached_of_idle (idle : f.isBusy = false) : Attached s f := by
  cases f <;> trivial

/-- Nothing of an attempt is on the stack. -/
theorem steady_idle (fixed : s.options = options) (idle : ∀ f ∈ stack, f.isBusy = false)
    (counted : s.retryCount = failures s.log)
    (delay : s.delayMs = s.options.delay s.retryCount)
    (within : ∀ m, s.options.maxRetries = some m → factoryCalls s.log ≤ m)
    (rested : s.phase = .connected ∨ s.phase = .backoff → factoryCalls s.log = s.retryCount)
    (trying : s.phase = .connecting → factoryCalls s.log = s.retryCount + 1 ∧
      s.inner.message ∧ s.inner.error)
    (armed : s.phase = .backoff → s.timers ≠ []) (watched : s.phase ≠ .closed → s.watchdog = true)
    (reset : s.phase = .connected → s.retryCount = 0) : Steady options s stack := by
  have none : ∀ f ∈ stack, f.isAttempt = false ∧ f.isFailing = false := by
    intro f hf
    simpa [Frame.isBusy] using idle f hf
  refine ⟨fixed, counted, delay, within, ?_, ?_, fun f hf hb => ?_, fun hp => .inl (armed hp),
    watched, fun f hf => attached_of_idle (idle f hf), fun hp _ => (trying hp).2, reset⟩
  · rintro (connected | ⟨backoff, -⟩ | ⟨f, hf, ha⟩)
    · exact rested (.inl connected)
    · exact rested (.inr backoff)
    · rw [(none f hf).2] at ha
      cases ha
  · rintro (⟨f, hf, ha⟩ | ⟨connecting, -⟩)
    · rw [(none f hf).1] at ha
      cases ha
    · exact (trying connecting).1
  · rw [idle f hf] at hb
    cases hb

theorem Still.idle (still : Still stack) : ∀ f ∈ stack, f.isBusy = false := fun f hf => by
  rw [Frame.isBusy, (still f hf).1, (still f hf).2, Bool.or_false]

theorem Steady.beginBackoff (h : Steady options s stack) (still : Still stack)
    (phase : s.phase = .connected) :
    Steady options s.beginBackoff stack := by
  have watched := h.watched (by simp [phase])
  rw [ReconnectingNetwork.beginBackoff, ReconnectingNetwork.detach_eq]
  refine steady_idle h.fixed still.idle h.counted h.delay h.within
    (fun _ => h.rested (.inl phase)) ?_ ?_
    (fun _ => watched) ?_
  · rintro ⟨⟩
  · exact fun _ => List.append_ne_nil_of_right_ne_nil _ (List.cons_ne_nil _ _)
  · rintro ⟨⟩

theorem Steady.failRest (fixed : s.options = options) (still : Still stack)
    (counted : s.retryCount = failures s.log)
    (delay : s.delayMs = s.options.delay s.retryCount)
    (within : ∀ m, s.options.maxRetries = some m → factoryCalls s.log ≤ m)
    (calls : factoryCalls s.log = s.retryCount) (watched : s.watchdog = true)
    (closed : s.phase ≠ .closed) (connected : s.phase ≠ .connected) (scope : Scope)
    (error : JSString)
    (handlers : List Nat) : Steadies options stack (s.failRest scope error handlers) := by
  cases handlers with
  | nil =>
    refine steady_idle fixed still.idle counted delay within (fun _ => calls) ?_ ?_
      (fun _ => watched) ?_
    · rintro ⟨⟩
    · exact fun _ => List.append_ne_nil_of_right_ne_nil _ (List.cons_ne_nil _ _)
    · rintro ⟨⟩
  | cons handler rest =>
    refine ⟨fixed, counted, delay, within, fun _ => calls, ?_, fun _ _ _ => closed, fun _ => .inr
      ⟨_, List.mem_cons_self, rfl⟩, fun _ => watched, ?_, fun _ none => ?_,
        fun hp => absurd hp connected⟩
    · rintro (⟨f, hf, ha⟩ | ⟨-, none⟩)
      · rcases List.mem_cons.mp hf with rfl | hf
        · cases ha
        · rw [(still f hf).1] at ha
          cases ha
      · cases none _ List.mem_cons_self
    · intro f hf
      rcases List.mem_cons.mp hf with rfl | hf
      · trivial
      · exact attached_of_idle (still.idle f hf)
    · cases none _ List.mem_cons_self

theorem Steady.failAttempt (h : Steady options s stack) {stack' : List Frame} (still : Still stack')
    (capped : s.options.baseMs ≤ s.options.maxMs) (calls : factoryCalls s.log = s.retryCount + 1)
    (closed : s.phase ≠ .closed) (connected : s.phase ≠ .connected) (error : JSString)
    (scope : Scope) :
    Steadies options stack' (s.failAttempt error scope) := by
  have watched := h.watched closed
  rw [ReconnectingNetwork.failAttempt]
  refine Steady.failRest ?_ still ?_ ?_ ?_ ?_ ?_ ?_ ?_ _ _ _ <;>
    rw [ReconnectingNetwork.countFailure, ReconnectingNetwork.detach_eq]
  · exact h.fixed
  · exact congrArg (· + 1) h.counted
  · change min (s.delayMs * s.options.factor) s.options.maxMs = s.options.delay (s.retryCount + 1)
    rw [h.delay, delay_succ _ capped]
  · exact h.within
  · exact calls
  · exact watched
  · exact closed
  · exact connected

theorem Steady.onInnerDeath (h : Steady options s stack) (o : Orderly s stack)
    (capped : s.options.baseMs ≤ s.options.maxMs) (failing : ∀ f ∈ stack, f.isFailing = false) :
    Steadies options stack s.onInnerDeath := by
  unfold ReconnectingNetwork.onInnerDeath
  split
  · rename_i phase
    exact h.beginBackoff (o.still (by simp [phase]) (by simp [phase]) failing) phase
  · rename_i phase
    exact h.failAttempt (o.still (by simp [phase]) (by simp [phase]) failing) capped
      (h.trying (.inr ⟨phase, failing⟩)) (by simp [phase]) (by simp [phase]) _ _
  · exact h

theorem Steady.reconnectedRest (h : Steady options s stack) (handlers : List Nat) :
    Steadies options stack (s.reconnectedRest handlers) := by
  cases handlers with
  | nil => exact h
  | cons handler rest =>
    exact Steady.push (h.alike ⟨rfl, rfl, rfl, rfl, rfl, rfl, rfl, rfl, rfl, rfl⟩) rfl

theorem Steady.settle (fixed : s.options = options) (still : Still stack)
    (capped : s.options.baseMs ≤ s.options.maxMs)
    (watched : s.watchdog = true) : Steadies options stack s.settleReconnected := by
  rw [ReconnectingNetwork.settleReconnected]
  refine Steady.reconnectedRest ?_ _
  rw [ReconnectingNetwork.countSuccess, ReconnectingNetwork.dropOpen_eq]
  refine steady_idle fixed still.idle rfl (delay_zero _ capped).symm (fun _ _ => Nat.zero_le _)
    (fun _ => rfl) ?_ ?_ (fun _ => watched) fun _ => rfl
  · rintro ⟨⟩
  · rintro ⟨⟩

theorem Steady.watch (h : Steady options s []) (o : Orderly s [])
    (capped : s.options.baseMs ≤ s.options.maxMs) : Steadies options [] s.watch := by
  have still : Still [] := by simp [Still]
  unfold ReconnectingNetwork.watch
  split
  · rename_i phase
    split
    · exact h.beginBackoff still phase
    · exact h
  · rename_i phase
    split
    · exact Steady.settle h.fixed still capped (h.watched (by simp [phase]))
    · split
      · exact h.onInnerDeath o capped (by simp)
      · exact h
  · exact h

theorem Steady.giveUpRest (h : Steady options s stack) (handlers : List Nat) :
    Steadies options stack (s.giveUpRest handlers) := by
  cases handlers with
  | nil => exact h.alike ⟨rfl, rfl, rfl, rfl, rfl, rfl, rfl, rfl, rfl, rfl⟩
  | cons handler rest =>
    exact Steady.push (h.alike ⟨rfl, rfl, rfl, rfl, rfl, rfl, rfl, rfl, rfl, rfl⟩) rfl

theorem Steady.attemptReconnect (h : Steady options s []) {timers : List (Nat × ℚ≥0)}
    (phase : s.phase = .backoff) : Steadies options [] { s with timers }.attemptReconnect := by
  have calls := h.rested (.inr (.inl ⟨phase, by simp⟩))
  have watched := h.watched (by simp [phase])
  unfold ReconnectingNetwork.attemptReconnect
  split
  · rename_i closed
    rw [show s.phase = .closed from closed] at phase
    cases phase
  · split
    · refine Steady.giveUpRest ?_ _
      refine steady_idle h.fixed (by simp) h.counted h.delay h.within ?_ ?_ ?_ ?_ ?_ <;> simp
    · rename_i enough
      refine ⟨h.fixed, h.counted, h.delay, fun m hm => ?_, ?_, fun _ => ?_, ?_, ?_,
        fun _ => watched, ?_, ?_, ?_⟩
      · have more : s.retryCount < m := by
          simpa [ReconnectingNetwork.outOfRetries,
            show s.options.maxRetries = some m from hm] using enough
        change factoryCalls s.log + 1 ≤ m
        omega
      · rintro (connected | ⟨-, none⟩ | ⟨f, hf, ha⟩)
        · rw [show s.phase = .connected from connected] at phase
          cases phase
        · cases none _ (List.mem_singleton.mpr rfl)
        · cases List.mem_singleton.mp hf
          cases ha
      · exact congrArg (· + 1) calls
      · exact fun _ _ _ => by simp [ReconnectingNetwork.record, phase]
      · exact fun _ => .inr ⟨_, List.mem_singleton.mpr rfl, rfl⟩
      · intro f hf
        cases List.mem_singleton.mp hf
        trivial
      · intro connecting
        rw [show s.phase = .connecting from connecting] at phase
        cases phase
      · intro connected
        rw [show s.phase = .connected from connected] at phase
        cases phase

/-- The next call of an attempt. -/
theorem Steady.next {g : Frame} (h : Steady options s [f]) (o : Orderly s [f]) (hf : f.isAttempt)
    (hg : g.isAttempt)
    (attached : Attached s' g) (phase : s'.phase = s.phase) (options' : s'.options = s.options)
    (retryCount : s'.retryCount = s.retryCount) (delayMs : s'.delayMs = s.delayMs)
    (watchdog : s'.watchdog = s.watchdog) (fails : failures s'.log = failures s.log)
    (calls : factoryCalls s'.log = factoryCalls s.log) : Steady options s' [g] := by
  have closed := h.live f (List.mem_singleton.mpr rfl) (by rw [Frame.isBusy, hf, Bool.true_or])
  have backoff := (o.trying f (List.mem_singleton.mpr rfl) hf).resolve_right closed
  have busy : g.isBusy := by rw [Frame.isBusy, hg, Bool.true_or]
  refine ⟨options'.trans h.fixed, ?_, ?_, ?_, ?_, fun _ => ?_, ?_, ?_, ?_, ?_, ?_, ?_⟩
  · rw [retryCount, fails]
    exact h.counted
  · rw [delayMs, options', retryCount]
    exact h.delay
  · rw [options', calls]
    exact h.within
  · rintro (connected | ⟨-, none⟩ | ⟨k, hk, ha⟩)
    · rw [phase, backoff] at connected
      cases connected
    · rw [none g (List.mem_singleton.mpr rfl)] at hg
      cases hg
    · obtain rfl := List.mem_singleton.mp hk
      cases k <;> simp_all [Frame.isAttempt, Frame.isFailing]
  · rw [calls, retryCount]
    exact h.trying (.inl ⟨f, List.mem_singleton.mpr rfl, hf⟩)
  · rw [phase]
    exact fun _ _ _ => closed
  · exact fun _ => .inr ⟨g, List.mem_singleton.mpr rfl, busy⟩
  · rw [phase, watchdog]
    exact h.watched
  · intro k hk
    obtain rfl := List.mem_singleton.mp hk
    exact attached
  · rw [phase, backoff]
    rintro ⟨⟩
  · rw [phase, backoff]
    rintro ⟨⟩

theorem Steady.awaitOpen (h : Steady options s [f]) (hf : f.isAttempt)
    (capped : s.options.baseMs ≤ s.options.maxMs) (attached : s.inner.message ∧ s.inner.error)
    (o : Orderly s []) (unarmed : s.timers = []) : Steadies options [] s.awaitOpen := by
  have closed := h.live f (List.mem_singleton.mpr rfl) (by rw [Frame.isBusy, hf, Bool.true_or])
  have watched := h.watched closed
  have calls := h.trying (.inl ⟨f, List.mem_singleton.mpr rfl, hf⟩)
  have still : Still [] := by simp [Still]
  have kept : Steady options { s with phase := .connecting } [] := by
    refine steady_idle h.fixed still.idle h.counted h.delay h.within ?_
      (fun _ => ⟨calls, attached⟩) ?_
      (fun _ => watched) ?_ <;> simp
  have ordered : Orderly { s with phase := .connecting } [] := by
    refine { o with armed := ?_, trying := by simp, failing := by simp }
    intro x hx
    change x ∈ s.timers at hx
    rw [unarmed] at hx
    cases hx
  unfold ReconnectingNetwork.awaitOpen
  dsimp only
  split
  · exact Steady.settle h.fixed still capped watched
  · split
    · exact Steady.push (kept.update (n := s.current)
        (i := { s.inner with opens := true }) rfl rfl) rfl
    · exact kept.alike ⟨rfl, rfl, rfl, rfl, rfl, rfl, rfl, rfl, rfl, rfl⟩
  · exact kept.onInnerDeath ordered capped (by simp)

theorem Steady.heardRest (h : Steady options s stack) (n : Nat) (raw : JSString)
    (handlers : List Nat) :
    Steadies options stack (s.heardRest n raw handlers) := by
  cases handlers with
  | nil => exact h
  | cons handler rest =>
    exact Steady.push (h.alike ⟨rfl, rfl, rfl, rfl, rfl, rfl, rfl, rfl, rfl, rfl⟩) rfl

theorem Steady.hear (h : Steady options s stack) (n : Nat) (raw : JSString) :
    Steadies options stack (s.hear n raw) :=
  Steady.heardRest (s := { s with lastMessageAt := s.now })
    (h.alike ⟨rfl, rfl, rfl, rfl, rfl, rfl, rfl, rfl, rfl, rfl⟩) n raw _

theorem Steady.hearErrorRest (h : Steady options s stack) (o : Orderly s stack)
    (capped : s.options.baseMs ≤ s.options.maxMs) (failing : ∀ f ∈ stack, f.isFailing = false)
    (n : Nat) (scope : Scope) (error : JSString) (handlers : List Nat) :
    Steadies options stack (s.hearErrorRest n scope error handlers) := by
  cases handlers with
  | nil =>
    rw [ReconnectingNetwork.hearErrorRest]
    split
    · exact h.onInnerDeath o capped failing
    · exact h
  | cons handler rest =>
    exact Steady.push (h.alike ⟨rfl, rfl, rfl, rfl, rfl, rfl, rfl, rfl, rfl, rfl⟩) rfl

theorem Steady.close (h : Steady options s stack) (idle : ∀ f ∈ stack, f.isBusy = false) :
    Steady options s.close stack := by
  unfold ReconnectingNetwork.close
  split
  · exact h.alike ⟨rfl, rfl, rfl, rfl, rfl, rfl, rfl, rfl, rfl, rfl⟩
  · rw [ReconnectingNetwork.detach_eq]
    refine steady_idle h.fixed idle h.counted h.delay h.within ?_ ?_ ?_ ?_ ?_ <;>
      simp [ReconnectingNetwork.disarm, ReconnectingNetwork.closeCurrent,
        ReconnectingNetwork.update, ReconnectingNetwork.clearHandlers, ReconnectingNetwork.record]

/-! ## One step, and every run -/

theorem Steady.resume_factory (h : Steady options s [.factory]) (o : Orderly s [.factory])
    (capped : s.options.baseMs ≤ s.options.maxMs) (r : ReconnectingNetwork.Reply)
    (takes : Frame.takes .factory r) : Steadies options [] (s.resume .factory r) := by
  have closed := h.live _ List.mem_cons_self rfl
  have backoff := (o.trying _ List.mem_cons_self rfl).resolve_right closed
  cases r with
  | returns => cases takes
  | throws error =>
    exact h.failAttempt (by simp [Still]) capped (h.trying (.inl ⟨_, List.mem_cons_self, rfl⟩))
      closed (by simp [backoff]) _ _
  | network readyState hasOnOpen =>
    refine h.next o rfl rfl ?_ rfl rfl rfl rfl rfl rfl rfl
    simp [Attached, ReconnectingNetwork.resume, ReconnectingNetwork.adopt,
      ReconnectingNetwork.inner, ReconnectingNetwork.update, ReconnectingNetwork.record]

theorem Steady.resume_subscribeMessage (h : Steady options s [.subscribeMessage s.current])
    (o : Orderly s [.subscribeMessage s.current]) (r : ReconnectingNetwork.Reply)
    (takes : (Frame.subscribeMessage s.current).takes r)
    (unbroken : ∀ error, r = .throws error →
      (Frame.subscribeMessage s.current).isFragile = false) :
    Steadies options [] (s.resume (.subscribeMessage s.current) r) := by
  cases r with
  | returns =>
    have message : s.inner.message := h.attached _ List.mem_cons_self
    refine h.next o rfl rfl ?_ rfl rfl rfl rfl rfl rfl rfl
    simpa [Attached, ReconnectingNetwork.resume, ReconnectingNetwork.inner,
      ReconnectingNetwork.update] using message
  | throws error => cases unbroken error rfl
  | network => cases takes

theorem Steady.resume_subscribeError (h : Steady options s [.subscribeError s.current])
    (o : Orderly s [.subscribeError s.current]) (capped : s.options.baseMs ≤ s.options.maxMs)
    (r : ReconnectingNetwork.Reply) (takes : (Frame.subscribeError s.current).takes r)
    (unbroken : ∀ error, r = .throws error → (Frame.subscribeError s.current).isFragile = false) :
    Steadies options [] (s.resume (.subscribeError s.current) r) := by
  have attached : s.inner.message ∧ s.inner.error := h.attached _ List.mem_cons_self
  cases r with
  | returns =>
    have kept : Steady options { s with unsubscribeError := some s.current } _ :=
      h.alike ⟨rfl, rfl, rfl, rfl, rfl, rfl, rfl, rfl, rfl, rfl⟩
    have ordered : Orderly { s with unsubscribeError := some s.current } [] :=
      Orderly.pop (f := .subscribeError s.current) { o with error := fun _ => .inl rfl }
        (by simp) (by simp)
    simp only [ReconnectingNetwork.resume]
    split
    · exact h.next o rfl rfl attached rfl rfl rfl rfl rfl rfl rfl
    · exact kept.awaitOpen rfl capped attached ordered
        (o.unarmed_busy List.mem_cons_self (.inl rfl))
  | throws error => cases unbroken error rfl
  | network => cases takes

theorem Steady.resume (h : Steady options s (f :: rest)) (o : Orderly s (f :: rest))
    (capped : s.options.baseMs ≤ s.options.maxMs) (r : ReconnectingNetwork.Reply)
    (takes : f.takes r)
    (unbroken : ∀ error, r = .throws error → f.isFragile = false) :
    Steadies options rest (s.resume f r) := by
  have bottom : f.isBottom → rest = [] := o.stacked.1
  have failing : f.isLight = false → ∀ g ∈ rest, g.isFailing = false := o.stacked.2.1
  have busy : f.isAttempt ∨ f.isFailing → s.timers = [] := o.unarmed_busy List.mem_cons_self
  cases f with
  | factory =>
    obtain rfl := bottom rfl
    exact h.resume_factory o capped r takes
  | subscribeMessage n =>
    obtain rfl := bottom rfl
    obtain rfl := o.own _ List.mem_cons_self n rfl
    exact h.resume_subscribeMessage o r takes unbroken
  | subscribeError n =>
    obtain rfl := bottom rfl
    obtain rfl := o.own _ List.mem_cons_self n rfl
    exact h.resume_subscribeError o capped r takes unbroken
  | configure n =>
    obtain rfl := bottom rfl
    have attached : s.inner.message ∧ s.inner.error := h.attached _ List.mem_cons_self
    cases r with
    | returns => exact h.awaitOpen rfl capped attached (o.pop (by simp) (by simp)) (busy (.inl rfl))
    | throws error => cases unbroken error rfl
    | network => cases takes
  | watchOpen n =>
    have popped := h.pop rfl
    cases r with
    | returns => exact popped.alike ⟨rfl, rfl, rfl, rfl, rfl, rfl, rfl, rfl, rfl, rfl⟩
    | throws => exact popped.update rfl rfl
    | network => cases takes
  | failing scope error hs =>
    cases r with
    | returns =>
      have closed := h.live _ List.mem_cons_self rfl
      have calls := h.rested (.inr (.inr ⟨_, List.mem_cons_self, rfl⟩))
      have quiet : Still rest := fun g hg => ⟨o.stacked.2.2.1 rfl g hg, failing rfl g hg⟩
      exact Steady.failRest h.fixed quiet h.counted h.delay h.within calls (h.watched closed) closed
        (o.failing _ List.mem_cons_self rfl).2.1 _ _ _
    | throws error => cases unbroken error rfl
    | network => cases takes
  | givingUp hs =>
    have popped := h.pop rfl
    cases r with
    | returns => exact popped.giveUpRest hs
    | throws => exact popped
    | network => cases takes
  | reconnected hs =>
    have popped := h.pop rfl
    cases r with
    | returns => exact popped.reconnectedRest hs
    | throws => exact popped
    | network => cases takes
  | heardError n scope error hs =>
    have popped := h.pop rfl
    cases r with
    | returns =>
      exact popped.hearErrorRest (o.pop (by simp) (by simp)) capped (failing rfl) n scope error hs
    | throws => exact popped
    | network => cases takes
  | heard n raw hs =>
    have popped := h.pop rfl
    cases r with
    | returns => exact popped.heardRest n raw hs
    | throws => exact popped
    | network => cases takes
  | passing =>
    have popped := h.pop rfl
    cases r with
    | network => cases takes
    | _ => exact popped

theorem Steady.step (h : Steady options c.net c.stack) (o : Orderly c.net c.stack)
    (capped : c.net.options.baseMs ≤ c.net.options.maxMs) (unbroken : Unbroken c e)
    (hstep : c.step e = some c') : Steady options c'.net c'.stack := by
  cases Config.step_does hstep with
  | settles n _ state phase current =>
    have kept := h.update (n := n)
      (i := { c.net.networks n with readyState := .opened, opens := false }) rfl rfl
    have running : c.net.phase ≠ .closed := by simp [phase]
    refine Steady.settle kept.fixed (o.still (by simp [phase]) (by simp [phase]) ?_) capped
      (kept.watched running)
    refine fun f hf => Bool.eq_false_iff.mpr fun ha => ?_
    have dead := (o.failing f hf ha).2.2 phase
    rw [ReconnectingNetwork.inner, current, state] at dead
    cases dead
  | opens n | closing n | closes n | queued n | lost n => exact h.update rfl rfl
  | message n raw => exact h.hear n raw
  | delivered n index =>
    have kept := h.update (n := n)
      (i := { c.net.networks n with queue := (c.net.networks n).queue.eraseIdx index }) rfl rfl
    exact kept.hear n _
  | error n scope error _ listening =>
    refine h.hearErrorRest o capped (fun f hf => Bool.eq_false_iff.mpr fun ha => ?_) n scope error _
    rw [((o.failing f hf ha).1 n).2] at listening
    cases listening
  | timer id empty fired =>
    obtain ⟨x, hx, -⟩ := List.any_eq_true.mp fired
    obtain ⟨-, -, -, phase, -, -⟩ := o.armed x hx
    rw [empty] at h
    exact h.attemptReconnect phase
  | watch empty =>
    rw [empty] at h o
    exact h.watch o capped
  | advance ms | refuses data => exact h.alike ⟨rfl, rfl, rfl, rfl, rfl, rfl, rfl, rfl, rfl, rfl⟩
  | send data | configure options =>
    exact Steady.push (h.alike ⟨rfl, rfl, rfl, rfl, rfl, rfl, rfl, rfl, rfl, rfl⟩) rfl
  | close => exact h.close unbroken
  | known => exact h
  | subscribe channel handler | unsubscribe channel handler =>
    cases channel <;> exact h.alike ⟨rfl, rfl, rfl, rfl, rfl, rfl, rfl, rfl, rfl, rfl⟩
  | reply r f rest top takes =>
    rw [top] at o h
    refine h.resume o capped r takes fun error hr => ?_
    rw [hr] at unbroken
    exact unbroken f (by rw [top]; rfl)

theorem steady_start (options : ReconnectOptions) (readyState : SocketReadyState) (hasOnOpen : Bool)
    (now : Nat) (capped : options.baseMs ≤ options.maxMs) :
    Steady options (start options readyState hasOnOpen now).net [] := by
  refine steady_idle rfl (by simp) rfl (delay_zero _ capped).symm (fun _ _ => Nat.zero_le _)
    (fun _ => rfl) ?_ ?_ (fun _ => rfl) fun _ => rfl
  · rintro ⟨⟩
  · rintro ⟨⟩

/-- Where a decorator stands between two events. -/
structure Paced (options : ReconnectOptions) (s : ReconnectingNetwork) : Prop where
  timer : s.phase = .backoff ↔ ∃ x, s.timers = [x]
  delay : ∀ x ∈ s.timers, x.2 = options.delay (failures s.log)
  watched : s.phase = .connecting → s.inner.message ∧ s.inner.error ∧ s.watchdog
  calls : ∀ m, options.maxRetries = some m → factoryCalls s.log ≤ m
  reset : s.phase = .connected → s.retryCount = 0 ∧ s.delayMs = options.baseMs

theorem Steady.paced (h : Steady options s []) (o : Orderly s [])
    (capped : options.baseMs ≤ options.maxMs) : Paced options s := by
  have delay := h.delay
  rw [h.fixed] at delay
  refine ⟨⟨fun phase => ?_, ?_⟩, fun x hx => ?_, fun phase => ?_, ?_, fun phase => ?_⟩
  · have armed := (h.armed phase).resolve_right (by simp)
    obtain ⟨x, hx⟩ := List.exists_mem_of_ne_nil _ armed
    exact ⟨x, (o.armed x hx).1⟩
  · rintro ⟨x, hx⟩
    exact (o.armed x (by simp [hx])).2.2.2.1
  · rw [(o.armed x hx).2.2.1, delay, h.counted]
  · obtain ⟨message, error⟩ := h.subscribed phase (by simp)
    exact ⟨message, error, h.watched (by simp [phase])⟩
  · rw [← h.fixed]
    exact h.within
  · rw [delay, h.reset phase, delay_zero _ capped]
    exact ⟨rfl, rfl⟩

/-- **Never stuck, and never too fast.** Exactly if the first delay is within the
cap, every unbroken run is paced: between two events a backoff has its one timer
with the delay that belongs to the failures so far, a candidate is subscribed and
watched, and the factory is called no more often than allowed. -/
theorem reconnects_are_paced (options : ReconnectOptions) :
    (∀ readyState hasOnOpen now es c,
      Run Config.step Unbroken (start options readyState hasOnOpen now) es c → c.stack = [] →
        Paced options c.net) ↔ options.baseMs ≤ options.maxMs := by
  constructor
  · intro h
    obtain ⟨c, run, idle, timers, log⟩ : ∃ c,
        Run Config.step Unbroken (start options .opened true 0) [.closes 0, .watch] c ∧
          c.stack = [] ∧
          c.net.timers = [(0, options.baseMs)] ∧ failures c.net.log = 0 :=
      ⟨_, .cons trivial rfl (.cons trivial rfl (.nil _)), rfl, rfl, rfl⟩
    have delay := (h _ _ _ _ c run idle).delay (0, options.baseMs) (by simp [timers])
    rw [log, ReconnectOptions.delay, pow_zero, mul_one] at delay
    exact min_eq_left_iff.mp delay.symm
  · intro capped readyState hasOnOpen now es c run idle
    have step : ∀ c e c', Orderly c.net c.stack ∧ Steady options c.net c.stack →
        Unbroken c e → Config.step c e = some c' →
        Orderly c'.net c'.stack ∧ Steady options c'.net c'.stack := by
      rintro c e c' ⟨o, h⟩ unbroken hstep
      exact ⟨o.step hstep, h.step o (by rw [h.fixed]; exact capped) unbroken hstep⟩
    obtain ⟨o, h⟩ := run.invariant _ step ⟨orderly_start .., steady_start _ _ _ _ capped⟩
    rw [idle] at o h
    exact h.paced o capped

/-- A candidate that refuses the subscription leaves a backoff without a timer. -/
theorem refused_subscription_is_stuck :
    ¬ ∀ options readyState hasOnOpen now es c,
      exec Config.step (start options readyState hasOnOpen now) es = some c → c.stack = [] →
        Paced options c.net := by
  intro h
  have run : ((exec Config.step (start .default .opened true 0) [.closes 0, .watch, .timer 0,
      .reply (.network .closed true), .reply (.throws (lit "closed"))]).map fun c =>
        (c.stack.isEmpty, c.net.phase, c.net.timers.isEmpty)) = some (true, .backoff, true) := by
    decide +kernel
  obtain ⟨c, hc, read⟩ := Option.map_eq_some_iff.mp run
  simp only [Prod.mk.injEq] at read
  obtain ⟨idle, phase, unarmed⟩ := read
  obtain ⟨x, hx⟩ := (h _ _ _ _ _ c hc (List.isEmpty_iff.mp idle)).timer.mp phase
  rw [List.isEmpty_iff.mp unarmed] at hx
  cases hx

end LemonModel.Reconnecting
