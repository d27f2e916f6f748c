import LemonModel.Base.Run

/-!
# The ticker

`SyncTicker`: a chain of timers, each armed when the tick before it has settled. A tick
is called, returns its promise or throws, and settles at any later time. While it is
called it may start or stop the ticker; nothing else happens meanwhile.
-/

namespace LemonModel

structure SyncTickerOptions where
  intervalMs : ℚ≥0
  factor : Option ℚ≥0
  maxMs : Option ℚ≥0

/-- An armed timer: what `setTimeout` returned, and what it was called with. -/
structure TickTimer where
  handle : Nat
  epoch : Nat
  delay : ℚ≥0
  deriving DecidableEq

/-- A tick whose promise has not settled. -/
structure PendingTick where
  number : Nat
  epoch : Nat
  deriving DecidableEq

/-- `calling` has the epoch of the tick that is being called. `failures` is a record:
the failures in a row since the last success or start. -/
structure SyncTicker where
  intervalMs : ℚ≥0
  factor : ℚ≥0
  maxMs : ℚ≥0
  delayMs : ℚ≥0
  timer : Option Nat
  running : Bool
  epoch : Nat
  armed : List TickTimer
  nextTimer : Nat
  calling : Option Nat
  ticks : List PendingTick
  nextTick : Nat
  failures : Nat

namespace SyncTicker

def create (options : SyncTickerOptions) : SyncTicker where
  intervalMs := options.intervalMs
  factor := options.factor.getD 2
  maxMs := options.maxMs.getD 60000
  delayMs := options.intervalMs
  timer := none
  running := false
  epoch := 0
  armed := []
  nextTimer := 0
  calling := none
  ticks := []
  nextTick := 0
  failures := 0

def schedule (t : SyncTicker) (epoch : Nat) : SyncTicker :=
  if !t.running ∨ epoch ≠ t.epoch then t
  else
    { t with
      timer := some t.nextTimer
      armed := t.armed ++ [⟨t.nextTimer, epoch, t.delayMs⟩]
      nextTimer := t.nextTimer + 1 }

def start (t : SyncTicker) : SyncTicker :=
  if t.running then t
  else
    { t with
      running := true
      epoch := t.epoch + 1
      delayMs := t.intervalMs
      failures := 0 }.schedule (t.epoch + 1)

/-- `clearTimeout(this.timer)`. -/
def clearTimer (t : SyncTicker) : SyncTicker :=
  match t.timer with
  | none => t
  | some handle => { t with armed := t.armed.filter (·.handle ≠ handle) }

def stop (t : SyncTicker) : SyncTicker :=
  { { t with running := false, epoch := t.epoch + 1 }.clearTimer with timer := none }

/-- `run` up to the call of the tick. -/
def run (t : SyncTicker) (epoch : Nat) : SyncTicker := { t with calling := some epoch }

/-- The tick returned a promise. -/
def returned (t : SyncTicker) (epoch : Nat) : SyncTicker :=
  { t with
    calling := none
    ticks := t.ticks ++ [⟨t.nextTick, epoch⟩]
    nextTick := t.nextTick + 1 }

/-- The first callback of `then`. -/
def fulfilled (t : SyncTicker) (epoch : Nat) : SyncTicker :=
  if epoch ≠ t.epoch then t
  else { t with delayMs := t.intervalMs, failures := 0 }.schedule epoch

/-- The second callback. -/
def rejected (t : SyncTicker) (epoch : Nat) : SyncTicker :=
  if epoch ≠ t.epoch then t
  else
    { t with
      delayMs := min (t.delayMs * t.factor) t.maxMs
      failures := t.failures + 1 }.schedule epoch

/-- The epochs of the ticks in flight. -/
def inFlight (t : SyncTicker) : List Nat := t.calling.toList ++ t.ticks.map PendingTick.epoch

end SyncTicker

inductive TickerEvent where
  | start
  | stop
  | fire (handle : Nat)
  /-- the tick that is called returns a promise -/
  | returns
  /-- it throws, or returns no promise -/
  | throws
  /-- the promise of a tick settles -/
  | settles (number : Nat) (ok : Bool)
  deriving DecidableEq

namespace SyncTicker

/-- One event; `none` where it cannot happen. -/
def step (t : SyncTicker) : TickerEvent → Option SyncTicker
  | .start => some t.start
  | .stop => some t.stop
  | .fire handle =>
    if t.calling.isSome then none
    else
      (t.armed.find? (·.handle = handle)).map fun timer =>
        { t with armed := t.armed.filter (·.handle ≠ handle) }.run timer.epoch
  | .returns => t.calling.map t.returned
  | .throws => t.calling.map fun _ => { t with calling := none }
  | .settles number ok =>
    if t.calling.isSome then none
    else
      (t.ticks.find? (·.number = number)).map fun tick =>
        let t := { t with ticks := t.ticks.filter (·.number ≠ number) }
        if ok then t.fulfilled tick.epoch else t.rejected tick.epoch

/-! ## What holds in every run -/

variable {t t' : SyncTicker} {e : TickerEvent}

/-- At most one link of the chain is there: its timer, or its tick. -/
structure Orderly (t : SyncTicker) : Prop where
  armed : ∀ x ∈ t.armed, t.armed = [x] ∧ t.timer = some x.handle ∧ x.epoch = t.epoch ∧
    x.delay = t.delayMs ∧ t.running = true ∧ t.epoch ∉ t.inFlight
  past : ∀ e ∈ t.inFlight, e ≤ t.epoch
  single : t.inFlight.count t.epoch ≤ 1
  current : t.epoch ∈ t.inFlight → t.running = true
  known : ∀ x ∈ t.ticks, x.number < t.nextTick
  numbers : (t.ticks.map PendingTick.number).Nodup

theorem orderly_create (options : SyncTickerOptions) : Orderly (create options) :=
  ⟨fun _ h => (nomatch h), fun _ h => (nomatch h), Nat.zero_le 1, fun h => (nomatch h),
    fun _ h => (nomatch h), .nil⟩

theorem Orderly.unarmed (h : Orderly t) (off : t.running = false ∨ t.epoch ∈ t.inFlight) :
    t.armed = [] := by
  rw [List.eq_nil_iff_forall_not_mem]
  intro x hx
  obtain ⟨-, -, -, -, on, idle⟩ := h.armed x hx
  rcases off with off | busy
  · rw [off] at on
    cases on
  · exact idle busy

/-- The chain goes on with its timer. -/
theorem Orderly.schedule (h : Orderly t) (on : t.running = true) (free : t.armed = [])
    (idle : t.epoch ∉ t.inFlight) : Orderly (t.schedule t.epoch) := by
  have scheduled : t.schedule t.epoch =
      { t with
        timer := some t.nextTimer
        armed := [⟨t.nextTimer, t.epoch, t.delayMs⟩]
        nextTimer := t.nextTimer + 1 } := by
    simp [SyncTicker.schedule, on, free]
  rw [scheduled]
  refine ⟨fun x hx => ?_, h.past, h.single, h.current, h.known, h.numbers⟩
  obtain rfl := List.mem_singleton.mp hx
  exact ⟨rfl, rfl, rfl, rfl, on, idle⟩

theorem Orderly.start (h : Orderly t) : Orderly t.start := by
  unfold SyncTicker.start
  split
  · exact h
  · rename_i off
    rw [Bool.not_eq_true] at off
    have idle : t.epoch + 1 ∉ t.inFlight := by
      intro mem
      have := h.past _ mem
      omega
    have next : Orderly { t with
        running := true, epoch := t.epoch + 1, delayMs := t.intervalMs, failures := 0 } := by
      have free := h.unarmed (.inl off)
      refine ⟨fun x hx => ?_, fun e he => ?_, ?_, fun mem => absurd mem idle, h.known, h.numbers⟩
      · rw [free] at hx
        cases hx
      · have := h.past e he
        exact Nat.le_succ_of_le this
      · exact (List.count_eq_zero.mpr idle).trans_le (Nat.zero_le 1)
    exact next.schedule rfl (h.unarmed (.inl off)) idle

theorem stop_armed (h : Orderly t) : t.stop.armed = [] := by
  unfold SyncTicker.stop SyncTicker.clearTimer
  split
  · rename_i none
    rw [List.eq_nil_iff_forall_not_mem]
    intro x hx
    obtain ⟨-, timer, -⟩ := h.armed x hx
    rw [timer] at none
    cases none
  · rename_i handle some
    simp only [List.filter_eq_nil_iff]
    intro x hx
    obtain ⟨-, timer, -⟩ := h.armed x hx
    rw [timer] at some
    cases some
    simp

theorem stop_frame (t : SyncTicker) : t.stop.inFlight = t.inFlight ∧ t.stop.ticks = t.ticks ∧
    t.stop.nextTick = t.nextTick ∧ t.stop.epoch = t.epoch + 1 ∧ t.stop.running = false ∧
    t.stop.delayMs = t.delayMs ∧ t.stop.failures = t.failures := by
  unfold SyncTicker.stop SyncTicker.clearTimer
  split <;> exact ⟨rfl, rfl, rfl, rfl, rfl, rfl, rfl⟩

theorem Orderly.stop (h : Orderly t) : Orderly t.stop := by
  have free := stop_armed h
  obtain ⟨flight, ticks, next, epoch, -⟩ := stop_frame t
  have idle : t.epoch + 1 ∉ t.inFlight := by
    intro mem
    have := h.past _ mem
    omega
  refine ⟨fun x hx => ?_, fun e he => ?_, ?_, fun mem => ?_, ?_, ?_⟩
  · rw [free] at hx
    cases hx
  · rw [flight] at he
    rw [epoch]
    exact Nat.le_succ_of_le (h.past e he)
  · rw [flight, epoch, List.count_eq_zero.mpr idle]
    exact Nat.zero_le 1
  · rw [flight, epoch] at mem
    exact absurd mem idle
  · rw [ticks, next]
    exact h.known
  · rw [ticks]
    exact h.numbers

/-- The timer of the chain fires. -/
theorem step_fire {handle : Nat} (h : Orderly t) (hstep : t.step (.fire handle) = some t') :
    t.calling = none ∧ t.running = true ∧ t.epoch ∉ t.inFlight ∧
      t' = { t with armed := [], calling := some t.epoch } := by
  simp only [step] at hstep
  split at hstep
  · cases hstep
  · rename_i quiet
    obtain ⟨x, hx, rfl⟩ := Option.map_eq_some_iff.mp hstep
    have own := List.find?_some hx
    rw [decide_eq_true_eq] at own
    obtain ⟨alone, -, epoch, -, on, idle⟩ := h.armed x (List.mem_of_find?_eq_some hx)
    have gone : t.armed.filter (·.handle ≠ handle) = [] := by
      rw [alone]
      simp [own]
    refine ⟨by simpa using quiet, on, idle, ?_⟩
    rw [gone, epoch]
    rfl

theorem Orderly.fire (h : Orderly t) (quiet : t.calling = none) (on : t.running = true)
    (idle : t.epoch ∉ t.inFlight) : Orderly { t with armed := [], calling := some t.epoch } := by
  have flight : { t with armed := [], calling := some t.epoch }.inFlight = t.epoch :: t.inFlight := by
    simp [inFlight, quiet]
  refine ⟨fun _ hx => (nomatch hx), fun e he => ?_, ?_, fun _ => on, h.known, h.numbers⟩
  · rw [flight] at he
    rcases List.mem_cons.mp he with rfl | he
    · exact Nat.le_refl _
    · exact h.past e he
  · rw [flight, List.count_cons_self, List.count_eq_zero.mpr idle]

/-- Ticks in flight that are some of those before. -/
theorem Orderly.fewer (h : Orderly t) (calling : Option Nat) (ticks : List PendingTick)
    (sub : ({ t with calling := calling, ticks := ticks } : SyncTicker).inFlight.Subperm t.inFlight)
    (kept : ticks.Sublist t.ticks) : Orderly { t with calling := calling, ticks := ticks } := by
  refine ⟨fun x hx => ?_, fun e he => h.past e (sub.subset he), ?_,
    fun mem => h.current (sub.subset mem), fun x hx => h.known x (kept.subset hx),
    h.numbers.sublist (kept.map _)⟩
  · obtain ⟨alone, timer, epoch, delay, on, idle⟩ := h.armed x hx
    exact ⟨alone, timer, epoch, delay, on, fun mem => idle (sub.subset mem)⟩
  · exact (sub.count_le t.epoch).trans h.single

theorem Orderly.returned (h : Orderly t) {epoch : Nat} (calls : t.calling = some epoch) :
    Orderly (t.returned epoch) := by
  have perm : (t.returned epoch).inFlight.Perm t.inFlight := by
    simp only [SyncTicker.returned, inFlight, calls, Option.toList_none, Option.toList_some,
      List.nil_append, List.map_append, List.map_cons, List.map_nil]
    exact List.perm_append_comm
  refine ⟨fun x hx => ?_, fun e he => h.past e (perm.mem_iff.mp he), ?_,
    fun mem => h.current (perm.mem_iff.mp mem), fun x hx => ?_, ?_⟩
  · obtain ⟨alone, timer, current, delay, on, idle⟩ := h.armed x hx
    exact ⟨alone, timer, current, delay, on, fun mem => idle (perm.mem_iff.mp mem)⟩
  · rw [perm.count_eq]
    exact h.single
  · rcases List.mem_append.mp hx with old | new
    · exact Nat.lt_succ_of_lt (h.known x old)
    · obtain rfl := List.mem_singleton.mp new
      exact Nat.lt_succ_self _
  · rw [SyncTicker.returned, List.map_append, List.nodup_append]
    refine ⟨h.numbers, by simp, ?_⟩
    rintro a ha b hb rfl
    obtain ⟨x, hx, rfl⟩ := List.mem_map.mp ha
    have := h.known x hx
    simp only [List.map_cons, List.map_nil, List.mem_singleton] at hb
    omega

/-- A tick of the chain settles: there is no other. -/
theorem Orderly.alone (h : Orderly t) {y z : PendingTick} (hy : y ∈ t.ticks) (hz : z ∈ t.ticks)
    (ne : y.number ≠ z.number) (current : y.epoch = t.epoch) : z.epoch ≠ t.epoch := by
  intro same
  have both : [y, z].Subperm t.ticks := by
    apply List.Nodup.subperm
    · have : y ≠ z := fun e => ne (congrArg PendingTick.number e)
      simp [this]
    · intro x hx
      rcases List.mem_pair.mp hx with rfl | rfl
      · exact hy
      · exact hz
  have two : 2 ≤ (t.ticks.map PendingTick.epoch).count t.epoch := by
    obtain ⟨l, perm, sub⟩ := both
    have pair := (perm.map PendingTick.epoch).count_eq t.epoch
    have le := (sub.map PendingTick.epoch).count_le t.epoch
    simp only [List.map_cons, List.map_nil, current, same, List.count_cons_self,
      List.count_nil] at pair
    omega
  have := h.single
  rw [inFlight, List.count_append] at this
  omega

/-- A tick settles. -/
theorem step_settles {number : Nat} {ok : Bool} (hstep : t.step (.settles number ok) = some t') :
    t.calling = none ∧ ∃ y ∈ t.ticks, y.number = number ∧
      t' = if ok then { t with ticks := t.ticks.filter (·.number ≠ number) }.fulfilled y.epoch
        else { t with ticks := t.ticks.filter (·.number ≠ number) }.rejected y.epoch := by
  simp only [step] at hstep
  split at hstep
  · cases hstep
  · rename_i quiet
    obtain ⟨y, hy, rfl⟩ := Option.map_eq_some_iff.mp hstep
    have own := List.find?_some hy
    rw [decide_eq_true_eq] at own
    exact ⟨by simpa using quiet, y, List.mem_of_find?_eq_some hy, own, rfl⟩

theorem Orderly.drop (h : Orderly t) (number : Nat) :
    Orderly { t with ticks := t.ticks.filter (·.number ≠ number) } := by
  refine h.fewer t.calling _ ?_ List.filter_sublist
  exact (List.Sublist.append (.refl _) (List.filter_sublist.map _)).subperm

theorem Orderly.dropped (h : Orderly t) (quiet : t.calling = none) {y : PendingTick}
    (hy : y ∈ t.ticks) (current : y.epoch = t.epoch) :
    t.epoch ∉ ({ t with ticks := t.ticks.filter (·.number ≠ y.number) } : SyncTicker).inFlight := by
  intro mem
  simp only [inFlight, quiet, Option.toList_none, List.nil_append] at mem
  obtain ⟨z, hz, same⟩ := List.mem_map.mp mem
  rw [List.mem_filter, decide_eq_true_eq] at hz
  exact h.alone hy hz.1 (Ne.symm hz.2) current same

/-- **The step lemma.** -/
theorem Orderly.step (h : Orderly t) (hstep : t.step e = some t') : Orderly t' := by
  cases e with
  | start =>
    obtain rfl := Option.some.inj hstep
    exact h.start
  | stop =>
    obtain rfl := Option.some.inj hstep
    exact h.stop
  | fire handle =>
    obtain ⟨quiet, on, idle, rfl⟩ := step_fire h hstep
    exact h.fire quiet on idle
  | returns =>
    obtain ⟨epoch, calls, rfl⟩ := Option.map_eq_some_iff.mp hstep
    exact h.returned calls
  | throws =>
    obtain ⟨epoch, calls, rfl⟩ := Option.map_eq_some_iff.mp hstep
    refine h.fewer none t.ticks ?_ (.refl _)
    simp only [inFlight, Option.toList_none, List.nil_append]
    exact (List.sublist_append_right _ _).subperm
  | settles number ok =>
    obtain ⟨quiet, y, hy, rfl, rfl⟩ := step_settles hstep
    have kept := h.drop y.number
    have next : ∀ delayMs failures, Orderly ({ t with
        ticks := t.ticks.filter (·.number ≠ y.number), delayMs := delayMs,
        failures := failures }.schedule y.epoch) ∨ y.epoch ≠ t.epoch := by
      intro delayMs failures
      by_cases current : y.epoch = t.epoch
      · left
        have busy : t.epoch ∈ t.inFlight := by
          rw [inFlight, List.mem_append]
          exact .inr (current ▸ List.mem_map_of_mem hy)
        have free := h.unarmed (.inr busy)
        have idle := h.dropped quiet hy current
        rw [current]
        refine Orderly.schedule ⟨fun x hx => ?_, kept.past, kept.single, kept.current, kept.known,
          kept.numbers⟩ (h.current busy) free idle
        rw [free] at hx
        cases hx
      · exact .inr current
    cases ok with
    | true =>
      simp only [if_true, fulfilled]
      split
      · exact kept
      · rename_i current
        exact (next _ _).resolve_right current
    | false =>
      simp only [Bool.false_eq_true, if_false, rejected]
      split
      · exact kept
      · rename_i current
        exact (next _ _).resolve_right current

/-! ## Whether ticks overlap -/

/-- A timer does not fire while a tick of an earlier epoch is in flight. -/
def Lone (t : SyncTicker) : TickerEvent → Prop
  | .fire _ => ∀ e ∈ t.inFlight, ¬ e < t.epoch
  | _ => True

instance (t : SyncTicker) (e : TickerEvent) : Decidable (Lone t e) := by
  unfold Lone
  split <;> infer_instance

@[simp] theorem schedule_inFlight (t : SyncTicker) (epoch : Nat) :
    (t.schedule epoch).inFlight = t.inFlight := by
  unfold SyncTicker.schedule
  split <;> rfl

theorem start_inFlight (t : SyncTicker) : t.start.inFlight = t.inFlight := by
  unfold SyncTicker.start
  split
  · rfl
  · exact schedule_inFlight _ _

theorem settled_inFlight (t : SyncTicker) (epoch : Nat) :
    (t.fulfilled epoch).inFlight = t.inFlight ∧ (t.rejected epoch).inFlight = t.inFlight := by
  unfold fulfilled rejected
  split
  · exact ⟨rfl, rfl⟩
  · exact ⟨schedule_inFlight _ _, schedule_inFlight _ _⟩

/-- No more ticks are in flight after a step, unless a timer fired. -/
theorem step_inFlight (quiet : ∀ handle, e ≠ .fire handle) (hstep : t.step e = some t') :
    t'.inFlight.length ≤ t.inFlight.length := by
  cases e with
  | start =>
    obtain rfl := Option.some.inj hstep
    rw [start_inFlight]
  | stop =>
    obtain rfl := Option.some.inj hstep
    rw [(stop_frame t).1]
  | fire handle => exact absurd rfl (quiet handle)
  | returns =>
    obtain ⟨epoch, calls, rfl⟩ := Option.map_eq_some_iff.mp hstep
    simp only [SyncTicker.returned, inFlight, calls, Option.toList_none, Option.toList_some,
      List.length_append, List.length_map, List.length_cons, List.length_nil]
    omega
  | throws =>
    obtain ⟨epoch, calls, rfl⟩ := Option.map_eq_some_iff.mp hstep
    simp only [inFlight, Option.toList_none, List.length_append, List.length_nil]
    omega
  | settles number ok =>
    obtain ⟨quiet, y, hy, rfl, rfl⟩ := step_settles hstep
    have fewer : ({ t with ticks := t.ticks.filter (·.number ≠ y.number) } :
        SyncTicker).inFlight.length ≤ t.inFlight.length := by
      simp only [inFlight, List.length_append, List.length_map]
      have := List.length_filter_le (fun x : PendingTick => decide (x.number ≠ y.number)) t.ticks
      omega
    cases ok with
    | true =>
      rw [if_pos rfl, (settled_inFlight _ _).1]
      exact fewer
    | false =>
      rw [if_neg (by simp), (settled_inFlight _ _).2]
      exact fewer

/-- **Ticks overlap only across a restart.** At most one tick is in flight all along a
run, exactly if no timer of it fires while a tick of an earlier epoch is in flight. -/
theorem ticks_never_overlap {options : SyncTickerOptions} {es : List TickerEvent}
    (run : exec step (create options) es = some t) :
    (∀ pre u, pre <+: es → exec step (create options) pre = some u → u.inFlight.length ≤ 1) ↔
      Run step Lone (create options) es t := by
  refine exec_judged_iff (fun t e t' h few hstep => ⟨h.step hstep, ?_⟩) (orderly_create options)
    (Nat.zero_le 1) run
  by_cases fires : ∃ handle, e = .fire handle
  · obtain ⟨handle, rfl⟩ := fires
    obtain ⟨quiet, -, idle, rfl⟩ := step_fire h hstep
    have flight : { t with armed := [], calling := some t.epoch }.inFlight =
        t.epoch :: t.inFlight := by
      simp [inFlight, quiet]
    rw [flight, List.length_cons]
    constructor
    · intro one e he
      have none : t.inFlight = [] := List.eq_nil_of_length_eq_zero (by omega)
      rw [none] at he
      cases he
    · intro lone
      have none : t.inFlight = [] := by
        rw [List.eq_nil_iff_forall_not_mem]
        intro e he
        have le := h.past e he
        have ge := lone e he
        obtain rfl : e = t.epoch := by omega
        exact idle he
      rw [none]
      exact Nat.le_refl 1
  · have quiet : ∀ handle, e ≠ .fire handle := fun handle same => fires ⟨handle, same⟩
    have lone : Lone t e := by
      cases e with
      | fire handle => exact absurd rfl (quiet handle)
      | _ => trivial
    exact iff_of_true ((step_inFlight quiet hstep).trans few) lone

def everyMinute : SyncTickerOptions := ⟨60000, none, none⟩

/-- Restarted while its tick is in flight, which settles before the next one. -/
theorem ticks_never_overlap_restarted :
    ∃ t, exec step (create everyMinute)
        [.start, .fire 0, .returns, .stop, .start, .settles 0 true, .fire 1, .returns] = some t ∧
      t.inFlight.length ≤ 1 := by
  obtain ⟨t, run⟩ := Run.of_allGood step Lone (create everyMinute)
    [.start, .fire 0, .returns, .stop, .start, .settles 0 true, .fire 1, .returns] (by decide)
  exact ⟨t, run.exec_eq, (ticks_never_overlap run.exec_eq).mpr run _ t (List.prefix_rfl) run.exec_eq⟩

/-- Restarted while its tick is in flight: two are. -/
theorem restarted_ticks_overlap :
    ∃ t, exec step (create everyMinute)
        [.start, .fire 0, .returns, .stop, .start, .fire 1] = some t ∧ t.inFlight = [3, 1] ∧
      ¬ t.inFlight.length ≤ 1 := by
  refine ⟨_, rfl, ?_, ?_⟩ <;> decide

/-! ## Whether the chain goes on -/

/-- Running means that one of the two links of the chain is there, and not both. -/
def Alive (t : SyncTicker) : Prop :=
  t.running = true ↔
    (∃ x ∈ t.armed, x.epoch = t.epoch) ∧ t.epoch ∉ t.inFlight ∨
      t.epoch ∈ t.inFlight ∧ ¬ ∃ x ∈ t.armed, x.epoch = t.epoch

/-- The delay after `failures` failures in a row. -/
def Paced (t : SyncTicker) : Prop :=
  t.delayMs = max t.intervalMs (min (t.intervalMs * t.factor ^ t.failures) t.maxMs)

/-- A tick of the epoch does not throw, and rejects only where the options let the delay
grow from the interval to the cap. -/
def Sound (t : SyncTicker) : TickerEvent → Prop
  | .throws => t.calling ≠ some t.epoch
  | .settles number false =>
    (∃ x ∈ t.ticks, x.number = number ∧ x.epoch = t.epoch) →
      t.intervalMs ≤ t.intervalMs * t.factor ∧ t.intervalMs ≤ t.maxMs
  | _ => True

instance (t : SyncTicker) (e : TickerEvent) : Decidable (Sound t e) := by
  unfold Sound
  split <;> infer_instance

/-- The delay is the interval, multiplied and capped once for each failure. -/
structure Chain (t : SyncTicker) : Prop extends Orderly t where
  delay : t.delayMs = (fun d => min (d * t.factor) t.maxMs)^[t.failures] t.intervalMs

theorem alive_iff (h : Orderly t) :
    t.Alive ↔ (t.running = true → t.armed ≠ [] ∨ t.epoch ∈ t.inFlight) := by
  have timer : (∃ x ∈ t.armed, x.epoch = t.epoch) ↔ t.armed ≠ [] := by
    constructor
    · rintro ⟨x, hx, -⟩
      exact List.ne_nil_of_mem hx
    · intro some
      obtain ⟨x, hx⟩ := List.exists_mem_of_ne_nil _ some
      exact ⟨x, hx, (h.armed x hx).2.2.1⟩
  have linked : t.armed ≠ [] → t.epoch ∉ t.inFlight ∧ t.running = true := by
    intro some
    obtain ⟨x, hx⟩ := List.exists_mem_of_ne_nil _ some
    obtain ⟨-, -, -, -, on, idle⟩ := h.armed x hx
    exact ⟨idle, on⟩
  have current := h.current
  rw [Alive, timer]
  tauto

/-! ### The delay -/

section

variable {i f m : ℚ≥0}

theorem pace_zero (i f m : ℚ≥0) : i = max i (min (i * f ^ 0) m) := by
  rw [pow_zero, mul_one, max_eq_left (min_le_left i m)]

theorem pace_grows (grows : i ≤ i * f) (capped : i ≤ m) (k : Nat) :
    (fun d => min (d * f) m)^[k] i = max i (min (i * f ^ k) m) := by
  induction k with
  | zero => exact pace_zero i f m
  | succ k ih =>
    rw [Function.iterate_succ_apply', ih]
    rcases eq_or_lt_of_le (zero_le (a := i)) with none | pos
    · simp [← none]
    · have factor : 1 ≤ f := by
        have := (mul_le_mul_iff_right₀ pos (b := 1) (c := f)).mp (by rwa [mul_one])
        exact this
      have above : ∀ j, i ≤ min (i * f ^ j) m := fun j =>
        le_min (le_mul_of_one_le_right zero_le (one_le_pow₀ factor)) capped
      have wide : m ≤ m * f := le_mul_of_one_le_right zero_le factor
      rw [max_eq_right (above k), max_eq_right (above (k + 1)), min_mul_of_nonneg _ _ zero_le,
        min_assoc, min_eq_right wide, pow_succ, mul_assoc]

/-- A delay that does not grow falls below the interval with the first failure. -/
theorem pace_falls (bad : ¬ (i ≤ i * f ∧ i ≤ m)) (k : Nat) :
    (fun d => min (d * f) m)^[k + 1] i < i := by
  rw [Function.iterate_succ_apply']
  by_cases capped : i ≤ m
  · have shrinks : i * f < i := not_le.mp fun grows => bad ⟨grows, capped⟩
    have below : (fun d => min (d * f) m)^[k] i ≤ i := by
      induction k with
      | zero => exact le_rfl
      | succ k ih =>
        rw [Function.iterate_succ_apply']
        calc min ((fun d => min (d * f) m)^[k] i * f) m
            ≤ (fun d => min (d * f) m)^[k] i * f := min_le_left _ _
          _ ≤ i * f := by gcongr
          _ ≤ i := shrinks.le
    calc min ((fun d => min (d * f) m)^[k] i * f) m
        ≤ (fun d => min (d * f) m)^[k] i * f := min_le_left _ _
      _ ≤ i * f := by gcongr
      _ < i := shrinks
  · exact (min_le_right _ _).trans_lt (not_le.mp capped)

theorem pace_iff (k : Nat) :
    (fun d => min (d * f) m)^[k + 1] i = max i (min (i * f ^ (k + 1)) m) ↔
      i ≤ i * f ∧ i ≤ m := by
  constructor
  · intro right
    by_contra bad
    have falls := pace_falls bad k
    rw [right] at falls
    exact absurd (le_max_left _ _) (not_le.mpr falls)
  · rintro ⟨grows, capped⟩
    exact pace_grows grows capped (k + 1)

end

/-! ### One step -/

theorem schedule_frame (t : SyncTicker) (epoch : Nat) : ∃ timer armed nextTimer,
    t.schedule epoch = { t with timer := timer, armed := armed, nextTimer := nextTimer } := by
  unfold SyncTicker.schedule
  split
  · exact ⟨_, _, _, rfl⟩
  · exact ⟨_, _, _, rfl⟩

theorem Chain.step (h : Chain t) (hstep : t.step e = some t') : Chain t' := by
  refine ⟨h.toOrderly.step hstep, ?_⟩
  cases e with
  | start =>
    obtain rfl := Option.some.inj hstep
    unfold SyncTicker.start
    split
    · exact h.delay
    · obtain ⟨_, _, _, frame⟩ := schedule_frame
        { t with running := true, epoch := t.epoch + 1, delayMs := t.intervalMs, failures := 0 }
        (t.epoch + 1)
      rw [frame]
      rfl
  | stop =>
    obtain rfl := Option.some.inj hstep
    unfold SyncTicker.stop SyncTicker.clearTimer
    split <;> exact h.delay
  | fire handle =>
    obtain ⟨-, -, -, rfl⟩ := step_fire h.toOrderly hstep
    exact h.delay
  | returns =>
    obtain ⟨epoch, -, rfl⟩ := Option.map_eq_some_iff.mp hstep
    exact h.delay
  | throws =>
    obtain ⟨epoch, -, rfl⟩ := Option.map_eq_some_iff.mp hstep
    exact h.delay
  | settles number ok =>
    obtain ⟨-, y, -, rfl, rfl⟩ := step_settles hstep
    cases ok with
    | true =>
      simp only [if_true, fulfilled]
      split
      · exact h.delay
      · obtain ⟨_, _, _, frame⟩ := schedule_frame
          { t with
            ticks := t.ticks.filter (·.number ≠ y.number), delayMs := t.intervalMs, failures := 0 }
          y.epoch
        rw [frame]
        rfl
    | false =>
      simp only [Bool.false_eq_true, if_false, rejected]
      split
      · exact h.delay
      · obtain ⟨_, _, _, frame⟩ := schedule_frame
          { t with
            ticks := t.ticks.filter (·.number ≠ y.number)
            delayMs := min (t.delayMs * t.factor) t.maxMs
            failures := t.failures + 1 } y.epoch
        rw [frame, Function.iterate_succ_apply', ← h.delay]

/-- The chain goes on where a timer was just armed. -/
theorem Orderly.scheduled (h : Orderly (t.schedule t.epoch)) (on : t.running = true) :
    (t.schedule t.epoch).Alive := by
  rw [alive_iff h]
  intro _
  left
  simp [SyncTicker.schedule, on]

/-- A tick of the chain has settled. -/
theorem settled_current (h : Orderly t) {y : PendingTick} (hy : y ∈ t.ticks)
    (current : y.epoch = t.epoch) : t.running = true := by
  apply h.current
  rw [inFlight, List.mem_append]
  exact .inr (current ▸ List.mem_map_of_mem hy)

/-- A tick of an earlier epoch has settled: the chain is as it was. -/
theorem settled_stale (h : Orderly t) (alive : t.Alive) {y : PendingTick} (hy : y ∈ t.ticks)
    (stale : y.epoch ≠ t.epoch) :
    ({ t with ticks := t.ticks.filter (·.number ≠ y.number) } : SyncTicker).Alive := by
  rw [alive_iff (h.drop y.number)]
  intro on
  rcases (alive_iff h).mp alive on with armed | busy
  · exact .inl armed
  · right
    simp only [inFlight, List.mem_append, List.mem_map, List.mem_filter] at busy ⊢
    rcases busy with calling | ⟨z, hz, same⟩
    · exact .inl calling
    · right
      refine ⟨z, ⟨hz, ?_⟩, same⟩
      rw [decide_eq_true_eq]
      intro twin
      have := List.inj_on_of_nodup_map h.numbers hz hy twin
      exact stale (this ▸ same)

theorem alive_start (h : Chain t) (alive : t.Alive) (paced : t.Paced)
    (hstep : t.step .start = some t') : t'.Alive ∧ t'.Paced := by
  have next := h.step hstep
  obtain rfl := Option.some.inj hstep
  unfold SyncTicker.start at next ⊢
  split at next
  · rename_i on
    rw [if_pos on]
    exact ⟨alive, paced⟩
  · rename_i off
    rw [if_neg off]
    refine ⟨next.toOrderly.scheduled rfl, ?_⟩
    obtain ⟨_, _, _, frame⟩ := schedule_frame
      { t with running := true, epoch := t.epoch + 1, delayMs := t.intervalMs, failures := 0 }
      (t.epoch + 1)
    rw [frame]
    exact pace_zero t.intervalMs t.factor t.maxMs

theorem alive_stop (h : Chain t) (paced : t.Paced) (hstep : t.step .stop = some t') :
    t'.Alive ∧ t'.Paced := by
  have next := h.step hstep
  obtain rfl := Option.some.inj hstep
  obtain ⟨-, -, -, -, off, -⟩ := stop_frame t
  refine ⟨?_, ?_⟩
  · rw [alive_iff next.toOrderly, off]
    rintro ⟨⟩
  · unfold SyncTicker.stop SyncTicker.clearTimer
    split <;> exact paced

theorem alive_fire {handle : Nat} (h : Chain t) (paced : t.Paced)
    (hstep : t.step (.fire handle) = some t') : t'.Alive ∧ t'.Paced := by
  have next := h.step hstep
  obtain ⟨quiet, -, -, rfl⟩ := step_fire h.toOrderly hstep
  refine ⟨?_, paced⟩
  rw [alive_iff next.toOrderly]
  intro _
  right
  simp [inFlight]

theorem alive_returns (h : Chain t) (alive : t.Alive) (paced : t.Paced)
    (hstep : t.step .returns = some t') : t'.Alive ∧ t'.Paced := by
  have next := h.step hstep
  obtain ⟨epoch, calls, rfl⟩ := Option.map_eq_some_iff.mp hstep
  refine ⟨?_, paced⟩
  rw [alive_iff next.toOrderly]
  intro on
  rcases (alive_iff h.toOrderly).mp alive on with armed | busy
  · exact .inl armed
  · right
    simp only [SyncTicker.returned, inFlight, calls, List.mem_append, List.map_append,
      Option.toList_some, Option.toList_none, List.nil_append, List.map_cons, List.map_nil]
      at busy ⊢
    exact busy.symm

/-- The chain ends with a tick that throws at once, unless it is of an earlier epoch. -/
theorem alive_throws (h : Chain t) (alive : t.Alive) (paced : t.Paced)
    (hstep : t.step .throws = some t') : t'.Alive ∧ t'.Paced ↔ Sound t .throws := by
  have next := h.step hstep
  obtain ⟨epoch, calls, rfl⟩ := Option.map_eq_some_iff.mp hstep
  rw [and_iff_left (show ({ t with calling := none } : SyncTicker).Paced from paced),
    alive_iff next.toOrderly]
  simp only [Sound, calls, ne_eq, Option.some.injEq]
  constructor
  · rintro goes rfl
    have busy : t.epoch ∈ t.inFlight := by simp [inFlight, calls]
    rcases goes (h.current busy) with armed | other
    · exact armed (h.unarmed (.inr busy))
    · have := h.single
      simp only [inFlight, calls, Option.toList_some, Option.toList_none, List.nil_append,
        List.singleton_append, List.count_cons_self] at this other
      have := List.count_pos_iff.mpr other
      omega
  · intro stale on
    rcases (alive_iff h.toOrderly).mp alive on with armed | busy
    · exact .inl armed
    · right
      simp only [inFlight, calls, Option.toList_some, Option.toList_none, List.nil_append,
        List.singleton_append, List.mem_cons] at busy ⊢
      exact busy.resolve_left (Ne.symm stale)

theorem alive_fulfilled {number : Nat} (h : Chain t) (alive : t.Alive) (paced : t.Paced)
    (hstep : t.step (.settles number true) = some t') : t'.Alive ∧ t'.Paced := by
  have next := h.step hstep
  obtain ⟨quiet, y, hy, rfl, rfl⟩ := step_settles hstep
  simp only [if_true, fulfilled] at next ⊢
  split at next
  · rename_i stale
    rw [if_pos stale]
    exact ⟨settled_stale h.toOrderly alive hy stale, paced⟩
  · rename_i current
    rw [not_not] at current
    rw [if_neg (not_not.mpr current)]
    have on := settled_current h.toOrderly hy current
    rw [current] at next ⊢
    refine ⟨next.toOrderly.scheduled on, ?_⟩
    obtain ⟨_, _, _, frame⟩ := schedule_frame
      { t with
        ticks := t.ticks.filter (·.number ≠ y.number), delayMs := t.intervalMs, failures := 0 }
      t.epoch
    rw [frame]
    exact pace_zero t.intervalMs t.factor t.maxMs

/-- A tick that fails keeps the delay right where the interval and its growth are capped right. -/
theorem alive_rejected {number : Nat} (h : Chain t) (alive : t.Alive) (paced : t.Paced)
    (hstep : t.step (.settles number false) = some t') :
    t'.Alive ∧ t'.Paced ↔ Sound t (.settles number false) := by
  have next := h.step hstep
  obtain ⟨quiet, y, hy, rfl, rfl⟩ := step_settles hstep
  simp only [Bool.false_eq_true, if_false, rejected] at next ⊢
  split at next
  · rename_i stale
    rw [if_pos stale]
    refine iff_of_true ⟨settled_stale h.toOrderly alive hy stale, paced⟩ ?_
    rintro ⟨x, hx, twin, same⟩
    have := List.inj_on_of_nodup_map h.numbers hx hy twin
    exact absurd (this ▸ same) stale
  · rename_i current
    rw [not_not] at current
    rw [if_neg (not_not.mpr current)]
    have on := settled_current h.toOrderly hy current
    rw [current] at next ⊢
    rw [and_iff_right (next.toOrderly.scheduled on)]
    obtain ⟨_, _, _, frame⟩ := schedule_frame
      { t with
        ticks := t.ticks.filter (·.number ≠ y.number)
        delayMs := min (t.delayMs * t.factor) t.maxMs
        failures := t.failures + 1 } t.epoch
    have paces : ({ t with
        ticks := t.ticks.filter (·.number ≠ y.number)
        delayMs := min (t.delayMs * t.factor) t.maxMs
        failures := t.failures + 1 }.schedule t.epoch).Paced ↔
          t.intervalMs ≤ t.intervalMs * t.factor ∧ t.intervalMs ≤ t.maxMs := by
      rw [frame, ← pace_iff t.failures, Function.iterate_succ_apply', ← h.delay]
      rfl
    rw [paces]
    constructor
    · exact fun grows _ => grows
    · exact fun sound => sound ⟨y, hy, rfl, current⟩

/-- **A step keeps the chain alive and its delay right, exactly if it is sound.** -/
theorem alive_step (h : Chain t) (alive : t.Alive) (paced : t.Paced)
    (hstep : t.step e = some t') : t'.Alive ∧ t'.Paced ↔ Sound t e := by
  cases e with
  | start => exact iff_of_true (alive_start h alive paced hstep) trivial
  | stop => exact iff_of_true (alive_stop h paced hstep) trivial
  | fire handle => exact iff_of_true (alive_fire h paced hstep) trivial
  | returns => exact iff_of_true (alive_returns h alive paced hstep) trivial
  | throws => exact alive_throws h alive paced hstep
  | settles number ok =>
    cases ok with
    | true => exact iff_of_true (alive_fulfilled h alive paced hstep) trivial
    | false => exact alive_rejected h alive paced hstep

theorem chain_create (options : SyncTickerOptions) : Chain (create options) :=
  ⟨orderly_create options, rfl⟩

/-- **A running ticker stays alive, with the right delay.** All along a run the ticker
runs exactly if one of a timer of the epoch and a tick of the epoch is there, and the
delay is the interval times the factor for each failure in a row, capped but not below
the interval; this is so exactly if every step of the run is sound. -/
theorem ticker_stays_alive {options : SyncTickerOptions} {es : List TickerEvent}
    (run : exec step (create options) es = some t) :
    (∀ pre u, pre <+: es → exec step (create options) pre = some u →
        u.Alive ∧ u.Paced ∧ ∀ x ∈ u.armed, x.delay = u.delayMs) ↔
      Run step Sound (create options) es t := by
  have start := chain_create options
  have alive : (create options).Alive := by
    rw [alive_iff start.toOrderly]
    rintro ⟨⟩
  refine exec_judged_iff (fun t e t' h held hstep => ⟨h.step hstep, ?_⟩) start
    ⟨alive, pace_zero _ _ _, fun _ hx => (nomatch hx)⟩ run
  have timers : ∀ x ∈ t'.armed, x.delay = t'.delayMs := fun x hx =>
    ((h.step hstep).armed x hx).2.2.2.1
  rw [← and_assoc, and_iff_left timers]
  exact alive_step h held.1 held.2.1 hstep

/-- A tick that fails twice and then succeeds. -/
theorem ticker_stays_alive_failing :
    ∃ t, exec step (create ⟨10, none, some 30⟩)
        [.start, .fire 0, .returns, .settles 0 false, .fire 1, .returns, .settles 1 false, .fire 2,
          .returns, .settles 2 true] = some t ∧ t.Alive := by
  obtain ⟨t, run⟩ := Run.of_allGood step Sound (create ⟨10, none, some 30⟩)
    [.start, .fire 0, .returns, .settles 0 false, .fire 1, .returns, .settles 1 false, .fire 2,
      .returns, .settles 2 true] (by decide +kernel)
  exact ⟨t, run.exec_eq,
    ((ticker_stays_alive run.exec_eq).mpr run _ t List.prefix_rfl run.exec_eq).1⟩

/-- A tick throws: the ticker runs with nothing left to come. With an interval above the
cap a failure shortens the delay. -/
theorem chain_dies :
    (∃ t, exec step (create everyMinute) [.start, .fire 0, .throws] = some t ∧ ¬ t.Alive) ∧
      ∃ t, exec step (create ⟨300000, none, none⟩) [.start, .fire 0, .returns, .settles 0 false] =
        some t ∧ t.delayMs = 60000 ∧ ¬ t.Paced := by
  refine ⟨⟨_, rfl, ?_⟩, ⟨_, rfl, ?_, ?_⟩⟩
  · unfold Alive
    decide
  · decide +kernel
  · unfold Paced
    decide +kernel

end SyncTicker

end LemonModel
