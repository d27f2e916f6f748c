import LemonModel.Socket.Reconnecting

/-!
# What holds in every run

The calls that are out form a stack with a fixed shape (`Stacked`), and at most
one reconnect timer is armed, always the one of the last backoff. Every step
keeps this (`Orderly`), whatever the inner networks, the factory and the
handlers do.
-/

namespace LemonModel.Reconnecting

open Text

/-! ## The shape of the stack -/

namespace Frame

/-- A call of `attemptReconnect` made before it sets the phase. -/
def isAttempt : Frame → Bool
  | factory => true
  | subscribeMessage _ => true
  | subscribeError _ => true
  | configure _ => true
  | _ => false

/-- Only a timer starts this call. -/
def isBottom : Frame → Bool
  | watchOpen _ => true
  | f => f.isAttempt

def isFailing : Frame → Bool
  | failing .. => true
  | _ => false

/-- A call that can come while a failed attempt is reported. -/
def isLight : Frame → Bool
  | heard .. => true
  | passing => true
  | _ => false

/-- The network a frame goes on with. -/
def network : Frame → Option Nat
  | subscribeMessage n => some n
  | subscribeError n => some n
  | configure n => some n
  | watchOpen n => some n
  | heardError n _ _ _ => some n
  | _ => none

end Frame

def Stacked : List Frame → Prop
  | [] => True
  | f :: rest =>
    (f.isBottom → rest = []) ∧ (f.isLight = false → ∀ g ∈ rest, g.isFailing = false) ∧
      (f.isFailing → ∀ g ∈ rest, g.isAttempt = false) ∧ Stacked rest

/-! ## The invariant -/

/-- No network has a handler of the decorator for messages or errors. -/
def Detached (s : ReconnectingNetwork) : Prop :=
  ∀ n, (s.networks n).message = false ∧ (s.networks n).error = false

/-- No attempt is going on, and none is reported as failed. -/
def Still (stack : List Frame) : Prop := ∀ f ∈ stack, f.isAttempt = false ∧ f.isFailing = false

structure Orderly (s : ReconnectingNetwork) (stack : List Frame) : Prop where
  newest : s.current + 1 = s.created
  stacked : Stacked stack
  lone : ∀ n ≠ s.current, (s.networks n).message = false ∧ (s.networks n).error = false
  armed : ∀ x ∈ s.timers, s.timers = [x] ∧ s.reconnectTimer = some x.1 ∧ x.2 = s.delayMs ∧
    s.phase = .backoff ∧ Still stack ∧ Detached s
  asking : .factory ∈ stack → Detached s
  trying : ∀ f ∈ stack, f.isAttempt → s.phase = .backoff ∨ s.phase = .closed
  failing : ∀ f ∈ stack, f.isFailing → Detached s ∧ s.phase ≠ .connected ∧
    (s.phase = .connecting → s.inner.readyState.isDead)
  message : s.inner.message → s.unsubscribeMessage = some s.current ∨
    .subscribeMessage s.current ∈ stack
  error : s.inner.error → s.unsubscribeError = some s.current ∨ .subscribeError s.current ∈ stack
  own : ∀ f ∈ stack, ∀ n, f.network = some n → n = s.current
  reported : ∀ n scope error rest, .heardError n scope error rest ∈ stack → scope.isClose →
    (s.networks n).readyState = .closed

/-- The two states differ in nothing `Orderly` reads, or in networks that lost a
subscription or went on towards their end. -/
structure Same (s s' : ReconnectingNetwork) : Prop where
  created : s'.created = s.created
  current : s'.current = s.current
  phase : s'.phase = s.phase
  delayMs : s'.delayMs = s.delayMs
  timers : s'.timers = s.timers
  reconnectTimer : s'.reconnectTimer = s.reconnectTimer
  unsubscribeMessage : s'.unsubscribeMessage = s.unsubscribeMessage
  unsubscribeError : s'.unsubscribeError = s.unsubscribeError
  message : ∀ n, (s'.networks n).message → (s.networks n).message
  error : ∀ n, (s'.networks n).error → (s.networks n).error
  dead : ∀ n, (s.networks n).readyState.isDead → (s'.networks n).readyState.isDead
  closed : ∀ n, (s.networks n).readyState = .closed → (s'.networks n).readyState = .closed

variable {s s' : ReconnectingNetwork} {stack rest : List Frame} {f : Frame}

theorem Same.off (same : Same s s') {n : Nat}
    (h : (s.networks n).message = false ∧ (s.networks n).error = false) :
    (s'.networks n).message = false ∧ (s'.networks n).error = false := by
  have message := same.message n
  have error := same.error n
  simp_all

theorem Same.detached (same : Same s s') (h : Detached s) : Detached s' := fun n => same.off (h n)

theorem Orderly.same (h : Orderly s stack) (same : Same s s') : Orderly s' stack := by
  have inner : s'.inner = s'.networks s.current := by rw [ReconnectingNetwork.inner, same.current]
  refine ⟨?_, h.stacked, fun n hn => ?_, fun x hx => ?_, fun hf => same.detached (h.asking hf),
    fun f hf ha => ?_, fun f hf ha => ?_, fun hm => ?_, fun he => ?_, fun f hf n hn => ?_,
    fun n scope error rest hf hs => same.closed n (h.reported n scope error rest hf hs)⟩
  · rw [same.created, same.current]
    exact h.newest
  · exact same.off (h.lone n (by rwa [same.current] at hn))
  · rw [same.timers] at hx
    obtain ⟨timers, timer, delay, phase, still, detached⟩ := h.armed x hx
    rw [same.timers, same.reconnectTimer, same.delayMs, same.phase]
    exact ⟨timers, timer, delay, phase, still, same.detached detached⟩
  · rw [same.phase]
    exact h.trying f hf ha
  · obtain ⟨detached, connected, connecting⟩ := h.failing f hf ha
    rw [same.phase, inner]
    exact ⟨same.detached detached, connected, fun hc => same.dead _ (connecting hc)⟩
  · rw [inner] at hm
    rw [same.unsubscribeMessage, same.current]
    exact h.message (same.message _ hm)
  · rw [inner] at he
    rw [same.unsubscribeError, same.current]
    exact h.error (same.error _ he)
  · rw [same.current]
    exact h.own f hf n hn

/-- A network changes that gets no subscription and does not come back. -/
theorem same_update {n : Nat} {i : Inner} (message : i.message → (s.networks n).message)
    (error : i.error → (s.networks n).error)
    (dead : (s.networks n).readyState.isDead → i.readyState.isDead)
    (closed : (s.networks n).readyState = .closed → i.readyState = .closed) :
    Same s (s.update n i) := by
  refine ⟨rfl, rfl, rfl, rfl, rfl, rfl, rfl, rfl, fun m => ?_, fun m => ?_, fun m => ?_,
    fun m => ?_⟩ <;>
    simp only [ReconnectingNetwork.update] <;> split <;> simp_all

/-! ## The stack grows and shrinks -/

/-- A frame that is neither part of an attempt nor of its failure. -/
theorem Orderly.push (h : Orderly s stack) (plain : f.isBottom = false ∧ f.isFailing = false)
    (light : f.isLight = false → ∀ g ∈ stack, g.isFailing = false)
    (own : ∀ n, f.network = some n → n = s.current)
    (reported : ∀ n scope error rest, f = .heardError n scope error rest → scope.isClose →
      (s.networks n).readyState = .closed) :
    Orderly s (f :: stack) := by
  have attempt : f.isAttempt = false := by
    cases f <;> simp_all [Frame.isAttempt, Frame.isBottom]
  have old : ∀ g ∈ f :: stack, g.isAttempt ∨ g.isFailing → g ∈ stack := by
    intro g hg hp
    rcases List.mem_cons.mp hg with rfl | hg
    · simp [attempt, plain.2] at hp
    · exact hg
  refine { h with
    stacked := ?_, armed := ?_, asking := ?_, trying := ?_, failing := ?_, message := ?_,
    error := ?_, own := ?_, reported := ?_ }
  · exact ⟨by simp [plain.1], light, by simp [plain.2], h.stacked⟩
  · intro x hx
    obtain ⟨timers, timer, delay, phase, still, detached⟩ := h.armed x hx
    refine ⟨timers, timer, delay, phase, fun g hg => ?_, detached⟩
    rcases List.mem_cons.mp hg with rfl | hg
    · exact ⟨attempt, plain.2⟩
    · exact still g hg
  · intro hf
    exact h.asking (old _ hf (.inl rfl))
  · intro g hg ha
    exact h.trying g (old g hg (.inl ha)) ha
  · intro g hg ha
    exact h.failing g (old g hg (.inr ha)) ha
  · intro hm
    exact (h.message hm).imp_right (List.mem_cons_of_mem _)
  · intro he
    exact (h.error he).imp_right (List.mem_cons_of_mem _)
  · intro g hg n hn
    rcases List.mem_cons.mp hg with rfl | hg
    · exact own n hn
    · exact h.own g hg n hn
  · intro n scope error rest hg hs
    rcases List.mem_cons.mp hg with rfl | hg
    · exact reported n scope error rest rfl hs
    · exact h.reported n scope error rest hg hs

/-- A call has come back. -/
theorem Orderly.pop (h : Orderly s (f :: rest))
    (message : f = .subscribeMessage s.current → s.inner.message →
      s.unsubscribeMessage = some s.current)
    (error : f = .subscribeError s.current → s.inner.error → s.unsubscribeError = some s.current) :
    Orderly s rest := by
  refine { h with
    stacked := h.stacked.2.2.2, armed := ?_, asking := ?_, trying := ?_, failing := ?_,
    message := ?_, error := ?_, own := ?_, reported := ?_ }
  · intro x hx
    obtain ⟨timers, timer, delay, phase, still, detached⟩ := h.armed x hx
    exact ⟨timers, timer, delay, phase, fun g hg => still g (List.mem_cons_of_mem _ hg), detached⟩
  · intro hf
    exact h.asking (List.mem_cons_of_mem _ hf)
  · intro g hg
    exact h.trying g (List.mem_cons_of_mem _ hg)
  · intro g hg
    exact h.failing g (List.mem_cons_of_mem _ hg)
  · intro hm
    rcases h.message hm with handle | hf
    · exact .inl handle
    · rcases List.mem_cons.mp hf with rfl | hf
      · exact .inl (message rfl hm)
      · exact .inr hf
  · intro he
    rcases h.error he with handle | hf
    · exact .inl handle
    · rcases List.mem_cons.mp hf with rfl | hf
      · exact .inl (error rfl he)
      · exact .inr hf
  · intro g hg
    exact h.own g (List.mem_cons_of_mem _ hg)
  · intro n scope error rest hg
    exact h.reported n scope error rest (List.mem_cons_of_mem _ hg)

/-! ## Subscriptions -/

namespace ReconnectingNetwork

theorem dropOpen_eq (s : ReconnectingNetwork) (u : Option Nat) :
    s.dropOpen u = { s with networks := fun n =>
      { s.networks n with opens := (s.networks n).opens && decide (u ≠ some n) } } := by
  cases u with
  | none => simp [dropOpen]
  | some m =>
    simp only [dropOpen, update]
    congr
    funext n
    by_cases h : n = m
    · simp [h]
    · simp [h, Ne.symm h]

theorem detach_eq (s : ReconnectingNetwork) :
    s.detach = { s with networks := fun n =>
      { s.networks n with
        message := (s.networks n).message && decide (s.unsubscribeMessage ≠ some n)
        error := (s.networks n).error && decide (s.unsubscribeError ≠ some n)
        opens := (s.networks n).opens && decide (s.unsubscribeCandidateOpen ≠ some n) } } := by
  have message : ∀ (s : ReconnectingNetwork) u, s.dropMessage u = { s with networks := fun n =>
      { s.networks n with message := (s.networks n).message && decide (u ≠ some n) } } := by
    intro s u
    cases u with
    | none => simp [dropMessage]
    | some m =>
      simp only [dropMessage, update]
      congr
      funext n
      by_cases h : n = m
      · simp [h]
      · simp [h, Ne.symm h]
  have error : ∀ (s : ReconnectingNetwork) u, s.dropError u = { s with networks := fun n =>
      { s.networks n with error := (s.networks n).error && decide (u ≠ some n) } } := by
    intro s u
    cases u with
    | none => simp [dropError]
    | some m =>
      simp only [dropError, update]
      congr
      funext n
      by_cases h : n = m
      · simp [h]
      · simp [h, Ne.symm h]
  rw [detach, message, error, dropOpen_eq]

end ReconnectingNetwork

theorem same_dropOpen (s : ReconnectingNetwork) (u : Option Nat) : Same s (s.dropOpen u) := by
  rw [ReconnectingNetwork.dropOpen_eq]
  exact ⟨rfl, rfl, rfl, rfl, rfl, rfl, rfl, rfl, fun _ => id, fun _ => id, fun _ => id, fun _ => id⟩

theorem same_detach (s : ReconnectingNetwork) : Same s s.detach := by
  rw [ReconnectingNetwork.detach_eq]
  exact ⟨rfl, rfl, rfl, rfl, rfl, rfl, rfl, rfl, by simp +contextual, by simp +contextual,
    fun _ => id, fun _ => id⟩

/-- While no candidate is being subscribed, `detach` leaves no subscription. -/
theorem Orderly.detach (h : Orderly s stack) (settled : ∀ f ∈ stack, f.isAttempt = false) :
    Detached s.detach := by
  intro n
  by_cases hn : n = s.current
  · subst hn
    have message := h.message
    have error := h.error
    have none : ∀ f : Frame, f.isAttempt = true → f ∉ stack := by
      intro f hf hm
      rw [settled f hm] at hf
      cases hf
    rw [or_iff_left (none _ rfl)] at message error
    rw [ReconnectingNetwork.detach_eq]
    simp only [Bool.and_eq_false_iff, decide_eq_false_iff_not, not_not]
    exact ⟨(Bool.eq_false_or_eq_true _).symm.imp_right message,
      (Bool.eq_false_or_eq_true _).symm.imp_right error⟩
  · exact (same_detach s).off (h.lone n hn)

/-! ## Timers -/

theorem Orderly.unarmed (h : Orderly s stack) (phase : s.phase ≠ .backoff) : s.timers = [] := by
  refine List.eq_nil_iff_forall_not_mem.mpr fun x hx => ?_
  exact phase (h.armed x hx).2.2.2.1

/-- No timer is armed while an attempt is going on or is reported as failed. -/
theorem Orderly.unarmed_busy (h : Orderly s stack) (hf : f ∈ stack)
    (busy : f.isAttempt ∨ f.isFailing) : s.timers = [] := by
  refine List.eq_nil_iff_forall_not_mem.mpr fun x hx => ?_
  have := (h.armed x hx).2.2.2.2.1 f hf
  simp [this] at busy

theorem Orderly.arm (h : Orderly s stack) (still : Still stack) (detached : Detached s)
    (unarmed : s.timers = []) : Orderly { s with phase := .backoff }.arm stack := by
  refine { h with
    armed := ?_, asking := fun _ => detached, trying := fun _ _ _ => .inl rfl, failing := ?_ }
  · intro x hx
    have timers : { s with phase := .backoff }.arm.timers = [(s.nextTimer, s.delayMs)] := by
      simp [ReconnectingNetwork.arm, unarmed]
    rw [timers, List.mem_singleton] at hx
    subst hx
    exact ⟨timers, rfl, rfl, rfl, still, detached⟩
  · intro f hf ha
    rw [(still f hf).2] at ha
    cases ha

/-! ## The methods -/

theorem Orderly.record (h : Orderly s stack) (effect : Effect) : Orderly (s.record effect) stack :=
  h.same ⟨rfl, rfl, rfl, rfl, rfl, rfl, rfl, rfl, fun _ => id, fun _ => id, fun _ => id, fun _ => id⟩

/-- What a method leaves behind on top of `stack`. -/
def Kept (stack : List Frame) (r : ReconnectingNetwork × Option Frame) : Prop :=
  Orderly r.1 (r.2.toList ++ stack)

theorem Orderly.failRest (h : Orderly s stack) (still : Still stack) (detached : Detached s)
    (unarmed : s.timers = []) (phase : s.phase ≠ .connected)
    (dead : s.phase = .connecting → s.inner.readyState.isDead) (scope : Scope) (error : JSString)
    (handlers : List Nat) : Kept stack (s.failRest scope error handlers) := by
  cases handlers with
  | nil => exact h.arm still detached unarmed
  | cons handler rest =>
    have old : ∀ g ∈ Frame.failing scope error rest :: stack, g.isAttempt → g ∈ stack := by
      intro g hg ha
      rcases List.mem_cons.mp hg with rfl | hg
      · cases ha
      · exact hg
    refine { h with
      stacked := ⟨by rintro ⟨⟩, fun _ g hg => (still g hg).2, fun _ g hg => (still g hg).1, h.stacked⟩
      armed := ?_, asking := fun _ => detached, trying := ?_, failing := fun _ _ _ =>
        ⟨detached, phase, dead⟩
      message := fun hm => (h.message hm).imp_right (List.mem_cons_of_mem _)
      error := fun he => (h.error he).imp_right (List.mem_cons_of_mem _), own := ?_, reported := ?_ }
    · intro x hx
      change x ∈ s.timers at hx
      rw [unarmed] at hx
      cases hx
    · exact fun g hg ha => h.trying g (old g hg ha) ha
    · intro g hg n hn
      rcases List.mem_cons.mp hg with rfl | hg
      · cases hn
      · exact h.own g hg n hn
    · intro n scope error rest hg
      rcases List.mem_cons.mp hg with hg | hg
      · cases hg
      · exact h.reported n scope error rest hg

theorem Orderly.failAttempt (h : Orderly s stack) (still : Still stack) (unarmed : s.timers = [])
    (phase : s.phase ≠ .connected) (dead : s.phase = .connecting → s.inner.readyState.isDead)
    (error : JSString) (scope : Scope) : Kept stack (s.failAttempt error scope) := by
  have detached := h.detach fun f hf => (still f hf).1
  have kept := h.same (same_detach s)
  rw [ReconnectingNetwork.detach_eq] at detached kept
  have counted : Orderly s.countFailure stack := by
    rw [ReconnectingNetwork.countFailure, ReconnectingNetwork.detach_eq]
    refine { kept with armed := ?_ }
    intro x hx
    change x ∈ s.timers at hx
    rw [unarmed] at hx
    cases hx
  rw [ReconnectingNetwork.failAttempt]
  refine counted.failRest still ?_ ?_ ?_ ?_ scope error _ <;>
    rw [ReconnectingNetwork.countFailure, ReconnectingNetwork.detach_eq]
  · exact detached
  · exact unarmed
  · exact phase
  · exact dead

theorem Orderly.beginBackoff (h : Orderly s stack) (still : Still stack) (unarmed : s.timers = []) :
    Orderly s.beginBackoff stack := by
  have detached := h.detach fun f hf => (still f hf).1
  have kept := h.same (same_detach s)
  rw [ReconnectingNetwork.beginBackoff]
  rw [ReconnectingNetwork.detach_eq] at detached kept ⊢
  exact kept.arm still detached unarmed

/-- While the phase is not that of an attempt, only a failure can be out. -/
theorem Orderly.still (h : Orderly s stack) (backoff : s.phase ≠ .backoff) (closed : s.phase ≠ .closed)
    (failing : ∀ f ∈ stack, f.isFailing = false) : Still stack := by
  refine fun f hf => ⟨Bool.eq_false_iff.mpr fun ha => ?_, failing f hf⟩
  exact (h.trying f hf ha).elim backoff closed

theorem Orderly.onInnerDeath (h : Orderly s stack) (failing : ∀ f ∈ stack, f.isFailing = false)
    (dead : s.phase = .connecting → s.inner.readyState.isDead) : Kept stack s.onInnerDeath := by
  unfold ReconnectingNetwork.onInnerDeath
  split
  · rename_i phase
    have unarmed := h.unarmed (by rw [phase]; simp)
    exact h.beginBackoff (h.still (by rw [phase]; simp) (by rw [phase]; simp) failing) unarmed
  · rename_i phase
    have unarmed := h.unarmed (by rw [phase]; simp)
    exact h.failAttempt (h.still (by rw [phase]; simp) (by rw [phase]; simp) failing) unarmed
      (by rw [phase]; simp) dead _ _
  · exact h

/-- A loop over handlers that leads to nothing. -/
theorem Orderly.reconnectedRest (h : Orderly s stack) (failing : ∀ f ∈ stack, f.isFailing = false)
    (handlers : List Nat) : Kept stack (s.reconnectedRest handlers) := by
  cases handlers with
  | nil => exact h
  | cons handler rest =>
    refine (h.record _).push ⟨rfl, rfl⟩ (fun _ => failing) ?_ ?_
    · rintro n ⟨⟩
    · rintro n scope error rest ⟨⟩

theorem Orderly.settle (h : Orderly s stack) (still : Still stack) (unarmed : s.timers = []) :
    Kept stack s.settleReconnected := by
  have kept := h.same (same_dropOpen s s.unsubscribeCandidateOpen)
  rw [ReconnectingNetwork.settleReconnected]
  refine Orderly.reconnectedRest ?_ (fun f hf => (still f hf).2) _
  rw [ReconnectingNetwork.countSuccess]
  rw [ReconnectingNetwork.dropOpen_eq] at kept ⊢
  refine { kept with armed := ?_, trying := ?_, failing := ?_ }
  · intro x hx
    change x ∈ s.timers at hx
    rw [unarmed] at hx
    cases hx
  · intro f hf ha
    rw [(still f hf).1] at ha
    cases ha
  · intro f hf ha
    rw [(still f hf).2] at ha
    cases ha

theorem Orderly.watch (h : Orderly s []) : Kept [] s.watch := by
  unfold ReconnectingNetwork.watch
  split
  · rename_i phase
    have unarmed := h.unarmed (by rw [phase]; simp)
    split
    · exact h.beginBackoff (by simp [Still]) unarmed
    · exact h
  · rename_i phase
    have unarmed := h.unarmed (by rw [phase]; simp)
    split
    · exact h.settle (by simp [Still]) unarmed
    · split
      · rename_i dead
        exact h.onInnerDeath (by simp) fun _ => dead
      · exact h
  · exact h

theorem Orderly.giveUpRest (h : Orderly s stack) (failing : ∀ f ∈ stack, f.isFailing = false)
    (handlers : List Nat) : Kept stack (s.giveUpRest handlers) := by
  cases handlers with
  | nil =>
    exact h.same ⟨rfl, rfl, rfl, rfl, rfl, rfl, rfl, rfl, fun _ => id, fun _ => id, fun _ => id,
      fun _ => id⟩
  | cons handler rest =>
    refine (h.record _).push ⟨rfl, rfl⟩ (fun _ => failing) ?_ ?_
    · rintro n ⟨⟩
    · rintro n scope error rest ⟨⟩

theorem Orderly.closing (h : Orderly s stack) (unarmed : s.timers = []) :
    Orderly { s with phase := .closed, watchdog := false } stack := by
  refine { h with armed := ?_, trying := fun _ _ _ => .inr rfl, failing := ?_ }
  · intro x hx
    change x ∈ s.timers at hx
    rw [unarmed] at hx
    cases hx
  · intro f hf ha
    exact ⟨(h.failing f hf ha).1, by simp, by rintro ⟨⟩⟩

theorem Orderly.attemptReconnect (h : Orderly s []) (unarmed : s.timers = []) (detached : Detached s) :
    s.phase = .backoff → Kept [] s.attemptReconnect := by
  intro phase
  unfold ReconnectingNetwork.attemptReconnect
  split
  · exact h
  · split
    · exact (h.closing unarmed).giveUpRest (by simp) _
    · refine { h.record .factory with
        stacked := ⟨fun _ => rfl, by simp, by simp, trivial⟩
        armed := ?_, asking := fun _ => detached, trying := ?_, failing := ?_, message := ?_,
        error := ?_, own := ?_, reported := ?_ }
      · intro x hx
        change x ∈ s.timers at hx
        rw [unarmed] at hx
        cases hx
      · exact fun _ _ _ => .inl phase
      · intro f hf ha
        obtain rfl := List.mem_singleton.mp hf
        cases ha
      · intro hm
        rw [show (s.record .factory).inner = s.networks s.current from rfl,
          (detached s.current).1] at hm
        cases hm
      · intro he
        rw [show (s.record .factory).inner = s.networks s.current from rfl,
          (detached s.current).2] at he
        cases he
      · intro f hf n hn
        obtain rfl := List.mem_singleton.mp hf
        cases hn
      · intro n scope error rest hf
        cases List.mem_singleton.mp hf

/-- The timer has fired. -/
theorem Orderly.timer (h : Orderly s []) {id : Nat} (fired : s.timers.any (·.1 = id)) :
    Kept [] { s with timers := s.timers.filter (·.1 ≠ id) }.attemptReconnect := by
  obtain ⟨x, hx, hid⟩ := List.any_eq_true.mp fired
  obtain ⟨timers, -, -, phase, -, detached⟩ := h.armed x hx
  have unarmed : s.timers.filter (·.1 ≠ id) = [] := by
    rw [timers]
    simpa using hid
  refine Orderly.attemptReconnect ?_ unarmed detached phase
  refine { h with armed := ?_ }
  intro y hy
  change y ∈ s.timers.filter (·.1 ≠ id) at hy
  rw [unarmed] at hy
  cases hy

/-- One more call of an attempt, now with the network it is about. -/
theorem Orderly.next (h : Orderly s []) (unarmed : s.timers = []) (hb : f.isBottom = true)
    (factory : f ≠ .factory) (phase : f.isAttempt → s.phase = .backoff ∨ s.phase = .closed)
    (own : f.network = some s.current) : Orderly s [f] := by
  have failing : f.isFailing = false := by
    cases f <;> simp_all [Frame.isBottom, Frame.isAttempt, Frame.isFailing]
  refine { h with
    stacked := ⟨fun _ => rfl, by simp, by simp, trivial⟩
    armed := ?_, asking := ?_, trying := ?_, failing := ?_
    message := fun hm => (h.message hm).imp_right (List.mem_cons_of_mem _)
    error := fun he => (h.error he).imp_right (List.mem_cons_of_mem _), own := ?_, reported := ?_ }
  · intro x hx
    rw [unarmed] at hx
    cases hx
  · intro hf
    exact absurd (List.mem_singleton.mp hf).symm factory
  · intro g hg ha
    obtain rfl := List.mem_singleton.mp hg
    exact phase ha
  · intro g hg ha
    obtain rfl := List.mem_singleton.mp hg
    rw [failing] at ha
    cases ha
  · intro g hg n hn
    obtain rfl := List.mem_singleton.mp hg
    exact Option.some.inj (hn.symm.trans own)
  · intro n scope error rest hg
    rw [← List.mem_singleton.mp hg] at hb
    cases hb

theorem Orderly.adopt (h : Orderly s [.factory]) (readyState : SocketReadyState) (hasOnOpen : Bool) :
    Kept [] (s.adopt readyState hasOnOpen) := by
  have unarmed := h.unarmed_busy (List.mem_singleton.mpr rfl) (.inl rfl)
  have phase := h.trying _ (List.mem_singleton.mpr rfl) rfl
  have detached := h.asking (List.mem_singleton.mpr rfl)
  constructor
  · rfl
  · exact ⟨fun _ => rfl, by simp, by simp, trivial⟩
  · intro n hn
    change (if n = s.created then _ else s.networks n).message = false ∧
      (if n = s.created then _ else s.networks n).error = false
    rw [if_neg (show n ≠ s.created from hn)]
    exact detached n
  · intro x hx
    change x ∈ s.timers at hx
    rw [unarmed] at hx
    cases hx
  · intro hf
    cases List.mem_singleton.mp hf
  · exact fun _ _ _ => phase
  · intro f hf ha
    obtain rfl := List.mem_singleton.mp hf
    cases ha
  · exact fun _ => .inr (List.mem_singleton.mpr rfl)
  · intro he
    simp [ReconnectingNetwork.adopt, ReconnectingNetwork.inner, ReconnectingNetwork.update,
      ReconnectingNetwork.record] at he
  · intro f hf n hn
    obtain rfl := List.mem_singleton.mp hf
    exact (Option.some.inj hn).symm
  · intro n scope error rest hf
    cases List.mem_singleton.mp hf

/-- The candidate has taken the message handler. -/
theorem Orderly.subscribed (h : Orderly s [.subscribeMessage s.current]) :
    Kept [] (s.resume (.subscribeMessage s.current) .returns) := by
  have unarmed := h.unarmed_busy (List.mem_singleton.mpr rfl) (.inl rfl)
  have phase := h.trying _ (List.mem_singleton.mpr rfl) rfl
  refine { h with
    stacked := ⟨fun _ => rfl, by simp, by simp, trivial⟩
    lone := ?_, armed := ?_, asking := ?_, trying := fun _ _ _ => phase, failing := ?_
    message := fun _ => .inl rfl, error := fun _ => .inr (List.mem_singleton.mpr rfl), own := ?_
    reported := ?_ }
  · intro n hn
    change (if n = s.current then _ else s.networks n).message = false ∧
      (if n = s.current then _ else s.networks n).error = false
    rw [if_neg (show n ≠ s.current from hn)]
    exact h.lone n hn
  · intro x hx
    change x ∈ s.timers at hx
    rw [unarmed] at hx
    cases hx
  · intro hf
    cases List.mem_singleton.mp hf
  · intro f hf ha
    obtain rfl := List.mem_singleton.mp hf
    cases ha
  · intro f hf n hn
    obtain rfl := List.mem_singleton.mp hf
    exact (Option.some.inj hn).symm
  · intro n scope error rest hf
    cases List.mem_singleton.mp hf

theorem Orderly.awaitOpen (h : Orderly s []) (unarmed : s.timers = []) : Kept [] s.awaitOpen := by
  have kept : Orderly { s with phase := .connecting } [] := by
    refine { h with armed := ?_, trying := by simp, failing := by simp }
    intro x hx
    change x ∈ s.timers at hx
    rw [unarmed] at hx
    cases hx
  unfold ReconnectingNetwork.awaitOpen
  dsimp only
  split
  · exact kept.settle (by simp [Still]) unarmed
  · split
    · have waiting := kept.same (same_update (n := s.current)
        (i := { s.inner with opens := true }) id id id id)
      exact waiting.next (f := .watchOpen s.current) unarmed rfl (by simp) (by rintro ⟨⟩) rfl
    · exact kept.same ⟨rfl, rfl, rfl, rfl, rfl, rfl, rfl, rfl, fun _ => id, fun _ => id, fun _ => id,
        fun _ => id⟩
  · rename_i dead
    refine kept.onInnerDeath (by simp) fun _ => ?_
    change s.inner.readyState.isDead
    cases hs : s.inner.readyState <;> simp_all [SocketReadyState.isDead, ReconnectingNetwork.inner]

theorem Orderly.heardRest (h : Orderly s stack) (n : Nat) (raw : JSString) (handlers : List Nat) :
    Kept stack (s.heardRest n raw handlers) := by
  cases handlers with
  | nil => exact h
  | cons handler rest =>
    refine (h.record _).push ⟨rfl, rfl⟩ (by rintro ⟨⟩) ?_ ?_
    · rintro n ⟨⟩
    · rintro n scope error rest ⟨⟩

theorem Orderly.hear (h : Orderly s stack) (n : Nat) (raw : JSString) : Kept stack (s.hear n raw) :=
  Orderly.heardRest (s := { s with lastMessageAt := s.now }) (h.same ⟨rfl, rfl, rfl, rfl, rfl, rfl,
    rfl, rfl, fun _ => id, fun _ => id, fun _ => id, fun _ => id⟩) n raw _

theorem Orderly.hearErrorRest (h : Orderly s stack) (failing : ∀ f ∈ stack, f.isFailing = false)
    {scope : Scope} (closed : scope.isClose → s.inner.readyState = .closed) (error : JSString)
    (handlers : List Nat) : Kept stack (s.hearErrorRest s.current scope error handlers) := by
  cases handlers with
  | nil =>
    rw [ReconnectingNetwork.hearErrorRest]
    split
    · rename_i hs
      exact h.onInnerDeath failing fun _ => by rw [closed hs]; rfl
    · exact h
  | cons handler rest =>
    refine (h.record _).push ⟨rfl, rfl⟩ (fun _ => failing) ?_ ?_
    · rintro n ⟨⟩
      rfl
    · rintro n scope error rest ⟨⟩
      exact closed

theorem Orderly.close (h : Orderly s stack) : Orderly s.close stack := by
  unfold ReconnectingNetwork.close
  split
  · exact h.record _
  · refine Orderly.record ?_ _
    have unarmed : ({ s with phase := .closed, watchdog := false } : ReconnectingNetwork).disarm.timers
        = [] := by
      refine List.eq_nil_iff_forall_not_mem.mpr fun x hx => ?_
      obtain ⟨hx, ne⟩ := List.mem_filter.mp hx
      exact of_decide_eq_true ne (h.armed x hx).2.1
    have off : Orderly ({ s with phase := .closed, watchdog := false } : ReconnectingNetwork).disarm
        stack := by
      refine { h with armed := ?_, trying := fun _ _ _ => .inr rfl, failing := ?_ }
      · intro x hx
        rw [unarmed] at hx
        cases hx
      · intro f hf ha
        exact ⟨(h.failing f hf ha).1, by simp [ReconnectingNetwork.disarm], by rintro ⟨⟩⟩
    have detached := off.same (same_detach _)
    have closed := detached.same (same_update (n := (ReconnectingNetwork.detach _).current)
      (i := { (ReconnectingNetwork.detach _).inner with
        readyState := .closed, message := false, opens := false })
      (by rintro ⟨⟩) id (fun _ => rfl) fun _ => rfl)
    exact closed.same ⟨rfl, rfl, rfl, rfl, rfl, rfl, rfl, rfl, fun _ => id, fun _ => id, fun _ => id,
      fun _ => id⟩

/-! ## One step, and every run -/

/-- The factory is done, or throws. -/
theorem Orderly.resume_factory (h : Orderly s [.factory]) (r : ReconnectingNetwork.Reply)
    (takes : Frame.takes .factory r) : Kept [] (s.resume .factory r) := by
  cases r with
  | returns => cases takes
  | throws error =>
    have phase := h.trying _ List.mem_cons_self rfl
    have unarmed := h.unarmed_busy List.mem_cons_self (.inl rfl)
    refine (h.pop (by simp) (by simp)).failAttempt (by simp [Still]) unarmed ?_ ?_ _ _
    · rcases phase with phase | phase <;> simp [phase]
    · rcases phase with phase | phase <;> simp [phase]
  | network readyState hasOnOpen => exact h.adopt readyState hasOnOpen

theorem Orderly.resume_subscribeMessage (h : Orderly s [.subscribeMessage s.current])
    (r : ReconnectingNetwork.Reply) (takes : (Frame.subscribeMessage s.current).takes r) :
    Kept [] (s.resume (.subscribeMessage s.current) r) := by
  cases r with
  | returns => exact h.subscribed
  | throws error =>
    have refused := h.same (same_update (n := s.current) (i := { s.inner with message := false })
      (by simp) id id id)
    exact refused.pop (by simp [ReconnectingNetwork.inner, ReconnectingNetwork.update]) (by simp)
  | network => cases takes

theorem Orderly.resume_subscribeError (h : Orderly s [.subscribeError s.current])
    (r : ReconnectingNetwork.Reply) (takes : (Frame.subscribeError s.current).takes r) :
    Kept [] (s.resume (.subscribeError s.current) r) := by
  have phase := h.trying _ List.mem_cons_self rfl
  have unarmed := h.unarmed_busy List.mem_cons_self (.inl rfl)
  cases r with
  | returns =>
    have kept : Orderly { s with unsubscribeError := some s.current } [] :=
      Orderly.pop (f := .subscribeError s.current) { h with error := fun _ => .inl rfl }
        (by simp) (by simp)
    simp only [ReconnectingNetwork.resume]
    split
    · exact (kept.record _).next (f := .configure s.current) unarmed rfl (by simp)
        (fun _ => phase) rfl
    · exact kept.awaitOpen unarmed
  | throws error =>
    have refused := h.same (same_update (n := s.current) (i := { s.inner with error := false })
      id (by simp) id id)
    exact refused.pop (by simp) (by simp [ReconnectingNetwork.inner, ReconnectingNetwork.update])
  | network => cases takes

theorem Orderly.resume (h : Orderly s (f :: rest)) (r : ReconnectingNetwork.Reply)
    (takes : f.takes r) : Kept rest (s.resume f r) := by
  have bottom : f.isBottom → rest = [] := h.stacked.1
  have failing : f.isLight = false → ∀ g ∈ rest, g.isFailing = false := h.stacked.2.1
  have busy : f.isAttempt ∨ f.isFailing → s.timers = [] := h.unarmed_busy List.mem_cons_self
  have own := h.own f List.mem_cons_self
  cases f with
  | factory =>
    obtain rfl := bottom rfl
    exact h.resume_factory r takes
  | subscribeMessage n =>
    obtain rfl := bottom rfl
    obtain rfl := own n rfl
    exact h.resume_subscribeMessage r takes
  | subscribeError n =>
    obtain rfl := bottom rfl
    obtain rfl := own n rfl
    exact h.resume_subscribeError r takes
  | configure n =>
    obtain rfl := bottom rfl
    have popped := h.pop (by simp) (by simp)
    cases r with
    | returns => exact popped.awaitOpen (busy (.inl rfl))
    | throws => exact popped
    | network => cases takes
  | watchOpen n =>
    obtain rfl := bottom rfl
    have popped := h.pop (by simp) (by simp)
    cases r with
    | returns =>
      exact popped.same ⟨rfl, rfl, rfl, rfl, rfl, rfl, rfl, rfl, fun _ => id, fun _ => id, fun _ => id,
        fun _ => id⟩
    | throws => exact popped.same (same_update id id id id)
    | network => cases takes
  | failing scope error hs =>
    have popped := h.pop (by simp) (by simp)
    cases r with
    | returns =>
      obtain ⟨detached, connected, dead⟩ := h.failing _ List.mem_cons_self rfl
      have still : Still rest := fun g hg => ⟨h.stacked.2.2.1 rfl g hg, failing rfl g hg⟩
      exact popped.failRest still detached (busy (.inr rfl)) connected dead _ _ _
    | throws => exact popped
    | network => cases takes
  | givingUp hs =>
    have popped := h.pop (by simp) (by simp)
    cases r with
    | returns => exact popped.giveUpRest (failing rfl) hs
    | throws => exact popped
    | network => cases takes
  | reconnected hs =>
    have popped := h.pop (by simp) (by simp)
    cases r with
    | returns => exact popped.reconnectedRest (failing rfl) hs
    | throws => exact popped
    | network => cases takes
  | heardError n scope error hs =>
    have popped := h.pop (by simp) (by simp)
    cases r with
    | returns =>
      obtain rfl := own n rfl
      exact popped.hearErrorRest (failing rfl)
        (h.reported _ scope error hs List.mem_cons_self) error hs
    | throws => exact popped
    | network => cases takes
  | heard n raw hs =>
    have popped := h.pop (by simp) (by simp)
    cases r with
    | returns => exact popped.heardRest n raw hs
    | throws => exact popped
    | network => cases takes
  | passing =>
    have popped := h.pop (by simp) (by simp)
    cases r with
    | network => cases takes
    | _ => exact popped

/-- **Every step keeps the order.** -/
theorem Orderly.step {c c' : Config} {e : Event} (h : Orderly c.net c.stack)
    (hstep : c.step e = some c') : Orderly c'.net c'.stack := by
  cases Config.step_does hstep with
  | settles n _ state phase current =>
    have kept := h.same (same_update (n := n)
      (i := { c.net.networks n with readyState := .opened, opens := false }) id id
      (by simp [state, SocketReadyState.isDead]) (by simp [state]))
    refine kept.settle (h.still (by simp [phase]) (by simp [phase]) ?_) (h.unarmed (by simp [phase]))
    refine fun f hf => Bool.eq_false_iff.mpr fun ha => ?_
    have dead := (h.failing f hf ha).2.2 phase
    rw [ReconnectingNetwork.inner, current, state] at dead
    cases dead
  | opens n _ state =>
    exact h.same (same_update id id (by simp [state, SocketReadyState.isDead]) (by simp [state]))
  | closing n _ alive =>
    refine h.same (same_update id id (fun _ => rfl) fun closed => ?_)
    simp [closed, SocketReadyState.isDead] at alive
  | closes n => exact h.same (same_update id id (fun _ => rfl) fun _ => rfl)
  | message n raw => exact h.hear n raw
  | queued n raw => exact h.same (same_update id id id id)
  | delivered n index =>
    have kept := h.same (same_update (n := n)
      (i := { c.net.networks n with queue := (c.net.networks n).queue.eraseIdx index }) id id id id)
    exact kept.hear n _
  | lost n index => exact h.same (same_update id id id id)
  | error n scope error _ listening closed =>
    obtain rfl : n = c.net.current := by
      by_contra hn
      rw [(h.lone n hn).2] at listening
      cases listening
    refine h.hearErrorRest (fun f hf => Bool.eq_false_iff.mpr fun ha => ?_) closed error _
    have := ((h.failing f hf ha).1 c.net.current).2
    rw [this] at listening
    cases listening
  | timer id empty fired =>
    rw [empty] at h
    exact h.timer fired
  | watch empty =>
    rw [empty] at h
    exact h.watch
  | advance ms =>
    exact h.same ⟨rfl, rfl, rfl, rfl, rfl, rfl, rfl, rfl, fun _ => id, fun _ => id, fun _ => id,
      fun _ => id⟩
  | refuses data error => exact h.record _
  | send data =>
    exact (h.record _).push ⟨rfl, rfl⟩ (by rintro ⟨⟩) (by rintro n ⟨⟩) (by rintro n _ _ _ ⟨⟩)
  | configure options =>
    have kept : Orderly { c.net with
        configured := some ((c.net.configured.map (·.merge options)).getD options) } _ := h.same
      ⟨rfl, rfl, rfl, rfl, rfl, rfl, rfl, rfl, fun _ => id, fun _ => id, fun _ => id, fun _ => id⟩
    exact (kept.record _).push ⟨rfl, rfl⟩ (by rintro ⟨⟩) (by rintro n ⟨⟩) (by rintro n _ _ _ ⟨⟩)
  | close => exact h.close
  | known => exact h
  | subscribe channel handler | unsubscribe channel handler =>
    refine h.same ?_
    cases channel <;>
      exact ⟨rfl, rfl, rfl, rfl, rfl, rfl, rfl, rfl, fun _ => id, fun _ => id, fun _ => id, fun _ => id⟩
  | reply r f rest top takes =>
    rw [top] at h
    exact h.resume r takes

theorem orderly_start (options : ReconnectOptions) (readyState : SocketReadyState) (hasOnOpen : Bool)
    (now : Nat) : Orderly (start options readyState hasOnOpen now).net [] := by
  refine ⟨rfl, trivial, fun n hn => ?_, ?_, ?_, by simp, by simp, fun _ => .inl rfl, fun _ => .inl rfl,
    by simp, by simp⟩
  · have hn : n ≠ 0 := hn
    simp [start, ReconnectingNetwork.create, hn]
  · rintro x ⟨⟩
  · simp

end LemonModel.Reconnecting
