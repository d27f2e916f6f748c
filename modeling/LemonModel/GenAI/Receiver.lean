import LemonModel.Base.Run
import LemonModel.Text.Utf16

/-!
# Waiting for one payload

`JSONProxyTransportReceiver`. Its transport is given by what it hands on: payloads
and errors. An error is known by its message. Waits are numbered as they begin.
-/

namespace LemonModel

open Text

/-- `validate` is `none` where it throws. -/
structure ProxyTransportReceiverOptions (T : Type) where
  timeoutMs : Option Int
  validate : Option (T → Option Bool)

structure PendingWait where
  wait : Nat
  transportId : JSString
  timer : Bool
  deriving DecidableEq

/-- What settled a promise. -/
inductive WaitCause (T : Type) where
  | payload (data : T)
  | transportError (error : JSString)
  | taskFailed (wait : Nat) (error : JSString)
  | timedOut (wait : Nat) (error : JSString)
  | detached (error : JSString)
  deriving DecidableEq

/-- A promise that was settled. -/
structure WaitSettled (T : Type) where
  wait : Nat
  cause : WaitCause T
  deriving DecidableEq

/-- `timers` has the waits whose timer is armed, `tasks` those whose task has not
ended. `settled` is a record, the newest first. -/
structure JSONProxyTransportReceiver (T : Type) where
  options : ProxyTransportReceiverOptions T
  pending : Option PendingWait
  waits : Nat
  timers : List (Nat × JSString)
  tasks : List Nat
  attached : Bool
  settled : List (WaitSettled T)

namespace JSONProxyTransportReceiver

variable {T : Type}

def create (options : ProxyTransportReceiverOptions T) : JSONProxyTransportReceiver T :=
  ⟨options, none, 0, [], [], true, []⟩

/-- `this.pending = undefined` and `clearTimeout(pending.timer)`, then the promise. -/
def settle (r : JSONProxyTransportReceiver T) (pending : PendingWait) (cause : WaitCause T) :
    JSONProxyTransportReceiver T :=
  { r with
    pending := none
    timers := if pending.timer then r.timers.filter (·.1 ≠ pending.wait) else r.timers
    settled := ⟨pending.wait, cause⟩ :: r.settled }

/-- `reject`; `cause` says what it is called with. -/
def reject (r : JSONProxyTransportReceiver T) (cause : WaitCause T) : JSONProxyTransportReceiver T :=
  match r.pending with
  | none => r
  | some pending => r.settle pending cause

/-- `resolve`. An exception of `validate` comes back from the transport as an error. -/
def resolve (r : JSONProxyTransportReceiver T) (data : T) (thrown : JSString) :
    JSONProxyTransportReceiver T :=
  match r.pending with
  | none => r
  | some pending =>
    match r.options.validate with
    | none => r.settle pending (.payload data)
    | some validate =>
      match validate data with
      | none => r.reject (.transportError thrown)
      | some false => r
      | some true => r.settle pending (.payload data)

/-- `wait` up to the call of its task; an error is what its promise rejects with. -/
def wait (r : JSONProxyTransportReceiver T) (transportId : JSString) :
    Except JSString (JSONProxyTransportReceiver T) :=
  if r.pending.isSome then
    .error (lit "@transport is already waiting - proxy.transport(" ++ transportId ++ lit ")")
  else if transportId = [] then .error (lit "@transportId (string) is required - proxy.transport")
  else
    let timer := decide (0 < r.options.timeoutMs.getD 30000)
    .ok { r with
      pending := some ⟨r.waits, transportId, timer⟩
      waits := r.waits + 1
      timers := if timer then (r.waits, transportId) :: r.timers else r.timers
      tasks := r.waits :: r.tasks }

/-- The task of a wait ends, with the error it fails with. -/
def taskEnds (r : JSONProxyTransportReceiver T) (wait : Nat) (failure : Option JSString) :
    JSONProxyTransportReceiver T :=
  let r := { r with tasks := r.tasks.filter (· ≠ wait) }
  match failure with
  | none => r
  | some error => r.reject (.taskFailed wait error)

def timeout (r : JSONProxyTransportReceiver T) (wait : Nat) (transportId : JSString) :
    JSONProxyTransportReceiver T :=
  { r with timers := r.timers.filter (·.1 ≠ wait) }.reject
    (.timedOut wait (lit "@transport[" ++ transportId ++ lit "] timeout - proxy.transport"))

def detach (r : JSONProxyTransportReceiver T) : JSONProxyTransportReceiver T :=
  { r.reject (.detached (lit "@transport detached - proxy.transport")) with attached := false }

end JSONProxyTransportReceiver

inductive ReceiverEvent (T : Type) where
  | wait (transportId : JSString)
  | taskEnds (wait : Nat) (failure : Option JSString)
  /-- the transport calls its listener; `thrown` is what `validate` throws, if it does -/
  | message (data : T) (thrown : JSString)
  | transportError (error : JSString)
  | timeout (wait : Nat)
  | detach

namespace JSONProxyTransportReceiver

variable {T : Type}

/-- One event; `none` where it cannot happen. -/
def step (r : JSONProxyTransportReceiver T) : ReceiverEvent T → Option (JSONProxyTransportReceiver T)
  | .wait transportId =>
    match r.wait transportId with
    | .ok r' => some r'
    | .error _ => some r
  | .taskEnds wait failure => if wait ∈ r.tasks then some (r.taskEnds wait failure) else none
  | .message data thrown => if r.attached then some (r.resolve data thrown) else none
  | .transportError error =>
    if r.attached then some (r.reject (.transportError error)) else none
  | .timeout wait => (r.timers.find? (·.1 = wait)).map fun timer => r.timeout wait timer.2
  | .detach => some r.detach

/-- What the promise of a wait has come to: `return promise` is reached when the
task has ended. -/
def promise (r : JSONProxyTransportReceiver T) (wait : Nat) : Option (WaitCause T) :=
  if wait ∈ r.tasks then none else (r.settled.find? (·.wait = wait)).map WaitSettled.cause

/-! ## What settles a wait -/

end JSONProxyTransportReceiver

/-- A task failure or a timeout that settled a promise was that of its own wait. -/
def WaitSettled.own {T : Type} (x : WaitSettled T) : Prop :=
  match x.cause with
  | .taskFailed wait _ => wait = x.wait
  | .timedOut wait _ => wait = x.wait
  | _ => True

/-- What an event calls `resolve` or `reject` with. -/
def ReceiverEvent.brings {T : Type} : ReceiverEvent T → WaitCause T → Prop
  | .message data thrown, cause => cause = .payload data ∨ cause = .transportError thrown
  | .transportError error, cause => cause = .transportError error
  | .taskEnds w (some error), cause => cause = .taskFailed w error
  | .timeout w, cause => ∃ error, cause = .timedOut w error
  | .detach, cause => ∃ error, cause = .detached error
  | _, _ => False

namespace JSONProxyTransportReceiver

variable {T : Type} {r r' : JSONProxyTransportReceiver T} {e : ReceiverEvent T}

/-- No task fails while a later wait is pending. -/
def Isolated (r : JSONProxyTransportReceiver T) : ReceiverEvent T → Prop
  | .taskEnds w (some _) => ∀ p ∈ r.pending, p.wait = w
  | _ => True

instance (r : JSONProxyTransportReceiver T) (e : ReceiverEvent T) : Decidable (Isolated r e) := by
  unfold Isolated
  split <;> infer_instance

/-- What a step changes of the waits: nothing, a new wait, or the end of the one
that is pending. -/
inductive Change (r : JSONProxyTransportReceiver T) (e : ReceiverEvent T) :
    JSONProxyTransportReceiver T → Prop where
  | none (r' : JSONProxyTransportReceiver T) (pending : r'.pending = r.pending)
      (waits : r'.waits = r.waits) (timers : ∀ t ∈ r'.timers, t ∈ r.timers)
      (settled : r'.settled = r.settled) : Change r e r'
  | begun (r' : JSONProxyTransportReceiver T) (p : PendingWait) (free : r.pending = .none)
      (wait : p.wait = r.waits) (pending : r'.pending = some p) (waits : r'.waits = r.waits + 1)
      (timers : ∀ t ∈ r'.timers, t = (p.wait, p.transportId) ∧ p.timer = true ∨ t ∈ r.timers)
      (settled : r'.settled = r.settled) : Change r e r'
  | ended (r' : JSONProxyTransportReceiver T) (p : PendingWait) (cause : WaitCause T)
      (was : r.pending = some p) (brings : e.brings cause) (pending : r'.pending = .none)
      (waits : r'.waits = r.waits)
      (timers : ∀ t ∈ r'.timers, t ∈ r.timers ∧ (p.timer = true → t.1 ≠ p.wait))
      (settled : r'.settled = ⟨p.wait, cause⟩ :: r.settled) : Change r e r'

theorem Change.settle {r₀ : JSONProxyTransportReceiver T} {p : PendingWait} {cause : WaitCause T}
    (was : r.pending = some p) (brings : e.brings cause) (waits : r₀.waits = r.waits)
    (timers : ∀ t ∈ r₀.timers, t ∈ r.timers) (settled : r₀.settled = r.settled) :
    Change r e (r₀.settle p cause) := by
  refine .ended _ p cause was brings rfl waits (fun t ht => ?_) (congrArg _ settled)
  simp only [JSONProxyTransportReceiver.settle] at ht
  split at ht
  · rw [List.mem_filter, decide_eq_true_eq] at ht
    exact ⟨timers t ht.1, fun _ => ht.2⟩
  · rename_i untimed
    exact ⟨timers t ht, fun timed => absurd timed untimed⟩

theorem Change.reject {r₀ : JSONProxyTransportReceiver T} {cause : WaitCause T}
    (brings : e.brings cause) (pending : r₀.pending = r.pending) (waits : r₀.waits = r.waits)
    (timers : ∀ t ∈ r₀.timers, t ∈ r.timers) (settled : r₀.settled = r.settled) :
    Change r e (r₀.reject cause) := by
  unfold JSONProxyTransportReceiver.reject
  split
  · exact .none _ pending waits timers settled
  · rename_i was
    exact .settle (pending.symm.trans was) brings waits timers settled

theorem Change.detached (h : Change r e r') : Change r e { r' with attached := false } := by
  cases h with
  | none pending waits timers settled => exact .none _ pending waits timers settled
  | begun p free wait pending waits timers settled =>
    exact .begun _ p free wait pending waits timers settled
  | ended p cause was brings pending waits timers settled =>
    exact .ended _ p cause was brings pending waits timers settled

theorem step_change (hstep : r.step e = some r') : Change r e r' := by
  cases e with
  | wait transportId =>
    simp only [step, JSONProxyTransportReceiver.wait] at hstep
    split at hstep
    · rename_i began
      obtain rfl := Option.some.inj hstep
      split at began
      · cases began
      · rename_i busy
        have free : r.pending = none := by simpa using busy
        split at began
        · cases began
        · cases began
          refine .begun _ ⟨r.waits, transportId, _⟩ free rfl rfl rfl (fun t ht => ?_) rfl
          simp only at ht
          split at ht
          · rename_i timed
            rcases List.mem_cons.mp ht with rfl | ht
            · exact .inl ⟨rfl, timed⟩
            · exact .inr ht
          · exact .inr ht
    · obtain rfl := Option.some.inj hstep
      exact .none _ rfl rfl (fun _ h => h) rfl
  | taskEnds w failure =>
    simp only [step] at hstep
    split at hstep
    · obtain rfl := Option.some.inj hstep
      cases failure with
      | none => exact .none _ rfl rfl (fun _ h => h) rfl
      | some error => exact .reject rfl rfl rfl (fun _ h => h) rfl
    · cases hstep
  | message data thrown =>
    simp only [step] at hstep
    split at hstep
    · obtain rfl := Option.some.inj hstep
      unfold resolve
      split
      · exact .none _ rfl rfl (fun _ h => h) rfl
      · rename_i p was
        split
        · exact .settle was (.inl rfl) rfl (fun _ h => h) rfl
        · split
          · exact .reject (.inr rfl) rfl rfl (fun _ h => h) rfl
          · exact .none _ rfl rfl (fun _ h => h) rfl
          · exact .settle was (.inl rfl) rfl (fun _ h => h) rfl
    · cases hstep
  | transportError error =>
    simp only [step] at hstep
    split at hstep
    · obtain rfl := Option.some.inj hstep
      exact .reject rfl rfl rfl (fun _ h => h) rfl
    · cases hstep
  | timeout w =>
    obtain ⟨timer, -, rfl⟩ := Option.map_eq_some_iff.mp hstep
    exact .reject ⟨_, rfl⟩ rfl rfl (fun t ht => List.mem_of_mem_filter ht) rfl
  | detach =>
    obtain rfl := Option.some.inj hstep
    apply Change.detached
    exact .reject ⟨_, rfl⟩ rfl rfl (fun _ h => h) rfl

/-! ## What holds in every run -/

structure Held (r : JSONProxyTransportReceiver T) : Prop where
  known : ∀ x ∈ r.settled, x.wait < r.waits
  current : ∀ p, r.pending = some p → p.wait < r.waits ∧ ∀ x ∈ r.settled, x.wait ≠ p.wait
  timers : ∀ t ∈ r.timers, ∃ p, r.pending = some p ∧ t = (p.wait, p.transportId) ∧ p.timer = true
  once : (r.settled.map WaitSettled.wait).Nodup

/-- **The step lemma.** -/
theorem Held.step (h : Held r) (hstep : r.step e = some r') : Held r' := by
  cases step_change hstep with
  | none pending waits timers settled =>
    refine ⟨?_, ?_, fun t ht => ?_, ?_⟩
    · rw [settled, waits]
      exact h.known
    · rw [pending, settled, waits]
      exact h.current
    · rw [pending]
      exact h.timers t (timers t ht)
    · rw [settled]
      exact h.once
  | begun p free wait pending waits timers settled =>
    refine ⟨fun x hx => ?_, fun q hq => ?_, fun t ht => ?_, ?_⟩
    · rw [settled] at hx
      have := h.known x hx
      omega
    · rw [pending] at hq
      cases hq
      refine ⟨by omega, fun x hx => ?_⟩
      rw [settled] at hx
      have := h.known x hx
      omega
    · rcases timers t ht with ⟨own, timed⟩ | old
      · exact ⟨p, pending, own, timed⟩
      · obtain ⟨q, hq, -⟩ := h.timers t old
        rw [free] at hq
        cases hq
    · rw [settled]
      exact h.once
  | ended p cause was brings pending waits timers settled =>
    obtain ⟨known, apart⟩ := h.current p was
    refine ⟨fun x hx => ?_, fun q hq => ?_, fun t ht => ?_, ?_⟩
    · rw [settled] at hx
      rw [waits]
      rcases List.mem_cons.mp hx with rfl | hx
      · exact known
      · exact h.known x hx
    · rw [pending] at hq
      cases hq
    · obtain ⟨old, cleared⟩ := timers t ht
      obtain ⟨q, hq, rfl, timed⟩ := h.timers t old
      rw [was] at hq
      cases hq
      exact absurd rfl (cleared timed)
    · rw [settled, List.map_cons, List.nodup_cons]
      refine ⟨fun mem => ?_, h.once⟩
      obtain ⟨x, hx, same⟩ := List.mem_map.mp mem
      exact apart x hx same

theorem held_create (options : ProxyTransportReceiverOptions T) : Held (create options) :=
  ⟨fun _ h => (nomatch h), fun _ h => (nomatch h), fun _ h => (nomatch h), .nil⟩

/-- A settlement is never undone. -/
theorem step_settled (hstep : r.step e = some r') : r.settled <:+ r'.settled := by
  cases step_change hstep with
  | none _ _ _ settled => exact settled ▸ List.suffix_rfl
  | begun _ _ _ _ _ _ settled => exact settled ▸ List.suffix_rfl
  | ended p cause _ _ _ _ _ settled => exact settled ▸ List.suffix_cons _ _

theorem exec_settled {es : List (ReceiverEvent T)} (run : exec step r es = some r') :
    r.settled <:+ r'.settled := by
  induction es generalizing r with
  | nil =>
    cases run
    exact List.suffix_rfl
  | cons e es ih =>
    obtain ⟨r₁, hstep, rest⟩ := Option.bind_eq_some_iff.mp run
    exact (step_settled hstep).trans (ih rest)

/-- A timer that is armed is that of the wait that is pending. -/
theorem timeout_own (h : Held r) {w : Nat} (hstep : r.step (.timeout w) = some r') :
    ∀ p, r.pending = some p → p.wait = w := by
  obtain ⟨t, ht, -⟩ := Option.map_eq_some_iff.mp hstep
  obtain ⟨p, was, rfl, -⟩ := h.timers t (List.mem_of_find?_eq_some ht)
  have same := List.find?_some ht
  rw [decide_eq_true_eq] at same
  intro q hq
  rw [was] at hq
  cases hq
  exact same

theorem tasks_reject (r : JSONProxyTransportReceiver T) (cause : WaitCause T) :
    (r.reject cause).tasks = r.tasks := by
  unfold JSONProxyTransportReceiver.reject
  split <;> rfl

/-- A step starts no task but that of a new wait. -/
theorem step_tasks (hstep : r.step e = some r') : ∀ w ∈ r'.tasks, w ∈ r.tasks ∨ w = r.waits := by
  have same : r'.tasks = r.tasks → ∀ w ∈ r'.tasks, w ∈ r.tasks ∨ w = r.waits :=
    fun tasks w hw => .inl (tasks ▸ hw)
  cases e with
  | wait transportId =>
    simp only [step, JSONProxyTransportReceiver.wait] at hstep
    split at hstep
    · rename_i began
      obtain rfl := Option.some.inj hstep
      split at began
      · cases began
      · split at began
        · cases began
        · cases began
          intro w hw
          exact (List.mem_cons.mp hw).symm
    · obtain rfl := Option.some.inj hstep
      exact same rfl
  | taskEnds w failure =>
    simp only [step] at hstep
    split at hstep
    · obtain rfl := Option.some.inj hstep
      intro v hv
      simp only [taskEnds] at hv
      split at hv
      · exact .inl (List.mem_of_mem_filter hv)
      · rw [tasks_reject] at hv
        exact .inl (List.mem_of_mem_filter hv)
    · cases hstep
  | message data thrown =>
    simp only [step] at hstep
    split at hstep
    · obtain rfl := Option.some.inj hstep
      apply same
      unfold resolve
      split
      · rfl
      · split
        · rfl
        · split
          · exact tasks_reject _ _
          · rfl
          · rfl
    · cases hstep
  | transportError error =>
    simp only [step] at hstep
    split at hstep
    · obtain rfl := Option.some.inj hstep
      exact same (tasks_reject _ _)
    · cases hstep
  | timeout w =>
    obtain ⟨timer, -, rfl⟩ := Option.map_eq_some_iff.mp hstep
    exact same (tasks_reject _ _)
  | detach =>
    obtain rfl := Option.some.inj hstep
    exact same (tasks_reject _ _)

/-- A promise that has come to something stays as it is. -/
theorem promise_step (h : Held r) (hstep : r.step e = some r') {w : Nat} {cause : WaitCause T}
    (before : r.promise w = some cause) : r'.promise w = some cause := by
  unfold promise at before ⊢
  split at before
  · cases before
  · rename_i idle
    obtain ⟨x, hx, rfl⟩ := Option.map_eq_some_iff.mp before
    have mem := List.mem_of_find?_eq_some hx
    have own := List.find?_some hx
    rw [decide_eq_true_eq] at own
    have known := h.known x mem
    have still : w ∉ r'.tasks := by
      intro hw
      rcases step_tasks hstep w hw with old | new
      · exact idle old
      · omega
    have found : r'.settled.find? (·.wait = w) = some x := by
      cases step_change hstep with
      | none _ _ _ settled => rw [settled, hx]
      | begun _ _ _ _ _ _ settled => rw [settled, hx]
      | ended p cause was _ _ _ _ settled =>
        have apart : ¬ p.wait = w := fun same => (h.current p was).2 x mem (own.trans same.symm)
        rw [settled, List.find?_cons_of_neg (by simpa using apart), hx]
    rw [if_neg still, found]
    rfl

/-- A task that fails rejects whatever is pending. -/
theorem taskFails_frees {w : Nat} {error : JSString}
    (hstep : r.step (.taskEnds w (some error)) = some r') : r'.pending = none := by
  simp only [step] at hstep
  split at hstep
  · obtain rfl := Option.some.inj hstep
    simp only [taskEnds, JSONProxyTransportReceiver.reject]
    split
    · assumption
    · rfl
  · cases hstep

/-- What a step settles it settles rightly, exactly if it is isolated. -/
theorem own_step (h : Held r) (hstep : r.step e = some r') (own : ∀ x ∈ r.settled, x.own) :
    (∀ x ∈ r'.settled, x.own) ↔ Isolated r e := by
  have other : r'.settled = r.settled → ∀ x ∈ r'.settled, x.own := by
    intro settled
    rw [settled]
    exact own
  cases step_change hstep with
  | none pending _ _ settled =>
    refine iff_of_true (other settled) ?_
    cases e with
    | taskEnds w failure =>
      cases failure with
      | none => trivial
      | some error =>
        intro p was
        rw [← pending, taskFails_frees hstep] at was
        cases was
    | _ => trivial
  | begun p free _ _ _ _ settled =>
    refine iff_of_true (other settled) ?_
    unfold Isolated
    split
    · rw [free]
      rintro p ⟨⟩
    · trivial
  | ended p cause was brings _ _ _ settled =>
    have judged : (∀ x ∈ r'.settled, x.own) ↔ (⟨p.wait, cause⟩ : WaitSettled T).own := by
      rw [settled, List.forall_mem_cons, and_iff_left own]
    rw [judged]
    cases e with
    | wait transportId => cases brings
    | taskEnds w failure =>
      cases failure with
      | none => cases brings
      | some error =>
        obtain rfl := brings
        simp [WaitSettled.own, Isolated, was, eq_comm]
    | message data thrown =>
      rcases brings with rfl | rfl <;> simp [WaitSettled.own, Isolated]
    | transportError error =>
      obtain rfl := brings
      simp [WaitSettled.own, Isolated]
    | timeout w =>
      obtain ⟨error, rfl⟩ := brings
      simp [WaitSettled.own, Isolated, timeout_own h hstep p was]
    | detach =>
      obtain ⟨error, rfl⟩ := brings
      simp [WaitSettled.own, Isolated]

theorem run_held {es : List (ReceiverEvent T)} (run : exec step r es = some r') (h : Held r) :
    Held r' :=
  exec_invariant Held (fun _ _ _ h hstep => h.step hstep) run h

theorem promise_run {es : List (ReceiverEvent T)} (run : exec step r es = some r') (h : Held r)
    {w : Nat} {cause : WaitCause T} (before : r.promise w = some cause) :
    r'.promise w = some cause := by
  have both := exec_invariant (fun r => Held r ∧ r.promise w = some cause)
    (fun _ _ _ h hstep => ⟨h.1.step hstep, promise_step h.1 hstep h.2⟩) run ⟨h, before⟩
  exact both.2

/-- **Waits are isolated exactly while no task outlives its wait to fail in a later
one.** In every run a promise is settled once at most and stays so, and an event
settles none but the one that is pending, by what it brings. All are settled by their own task, timer or
payload, an error of the transport or a detach, if and only if no task fails while a
later wait is pending. -/
theorem waits_are_isolated {options : ProxyTransportReceiverOptions T}
    {es : List (ReceiverEvent T)} (run : exec step (create options) es = some r) :
    (r.settled.map WaitSettled.wait).Nodup ∧
      (∀ es' r' w cause, exec step r es' = some r' → r.promise w = some cause →
        r'.promise w = some cause) ∧
      (∀ e r', r.step e = some r' → r'.settled = r.settled ∨
        ∃ p cause, r.pending = some p ∧ e.brings cause ∧
          r'.settled = ⟨p.wait, cause⟩ :: r.settled) ∧
      ((∀ x ∈ r.settled, x.own) ↔ Run step Isolated (create options) es r) := by
  have held := run_held run (held_create options)
  refine ⟨held.once, fun _ _ _ _ later before => promise_run later held before,
    fun e r' hstep => ?_, ?_⟩
  · cases step_change hstep with
    | none _ _ _ settled => exact .inl settled
    | begun _ _ _ _ _ _ settled => exact .inl settled
    | ended p cause was brings _ _ _ settled => exact .inr ⟨p, cause, was, brings, settled⟩
  · have begun : ∀ x ∈ (create options).settled, x.own := fun _ h => (nomatch h)
    have held := held_create options
    generalize create options = r₀ at run begun held
    constructor
    · intro own
      induction es generalizing r₀ with
      | nil =>
        cases run
        exact .nil _
      | cons e es ih =>
        obtain ⟨r₁, hstep, rest⟩ := Option.bind_eq_some_iff.mp run
        have after : ∀ x ∈ r₁.settled, x.own := fun x hx => own x ((exec_settled rest).subset hx)
        exact .cons ((own_step held hstep begun).mp after) hstep
          (ih r₁ rest after (held.step hstep))
    · intro isolated
      have both := isolated.invariant (fun r => Held r ∧ ∀ x ∈ r.settled, x.own)
        (fun _ _ _ h good hstep => ⟨h.1.step hstep, (own_step h.1 hstep h.2).mpr good⟩)
        ⟨held, begun⟩
      exact both.2

/-- The first wait gets its payload while its task still runs; the second times out. -/
def twoWaits : List (ReceiverEvent Nat) :=
  [.wait (lit "a"), .message 7 [], .taskEnds 0 none, .wait (lit "b"), .timeout 1]

theorem waits_are_isolated_two :
    ∃ r, Run step Isolated (create ⟨none, none⟩) twoWaits r ∧ ∀ x ∈ r.settled, x.own := by
  obtain ⟨r, run⟩ := Run.of_allGood step Isolated (create ⟨none, none⟩) twoWaits (by decide)
  exact ⟨r, run, (waits_are_isolated run.exec_eq).2.2.2.mpr run⟩

/-- The task of a wait that has its payload fails, and rejects the next wait. -/
theorem late_failure_rejects_the_next :
    ∃ r, exec step (create (T := Nat) ⟨none, none⟩)
        [.wait (lit "a"), .message 7 [], .wait (lit "b"), .taskEnds 0 (some (lit "late"))] =
          some r ∧
      r.settled = [⟨1, .taskFailed 0 (lit "late")⟩, ⟨0, .payload 7⟩] ∧
      ¬ ∀ x ∈ r.settled, x.own := by
  refine ⟨_, rfl, rfl, fun own => ?_⟩
  have late := own ⟨1, .taskFailed 0 (lit "late")⟩ List.mem_cons_self
  simp [WaitSettled.own] at late

end JSONProxyTransportReceiver

end LemonModel
