import LemonModel.Progress.Emission
import LemonModel.Progress.NoLoss

/-!
# What a reporter lets out

A call or a timer is contained exactly if each of its emissions is safe. Then the tasks are
as if nothing had failed.
-/

namespace LemonModel

open Text

namespace ProgressReporter

variable {env : Surroundings} {r r' : ProgressReporter} {id : JSString} {t : ProgressTask}
  {p : ProgressReporter × Bool}

/-! ## The calls -/

/-- A task as a patch of `update` leaves it. -/
def updated (t : ProgressTask) (status : Option ProgressStatus) (rest : ProgressFields) :
    ProgressTask :=
  { t with
    state := { t.state with
      status := nextStatus t.state.status status
      fields := t.state.fields.assignDefined rest } }

/-- A task as its end leaves it. -/
def finished (t : ProgressTask) (status : ProgressStatus) (patch : ProgressFields) : ProgressTask :=
  { t with
    closed := true
    timer := false
    state := { t.state with fields := t.state.fields.assignDefined patch, status } }

/-- A task with the message of an error. -/
def failed (t : ProgressTask) (message : JSString) : ProgressTask :=
  { t with state := { t.state with fields := t.state.fields.put .error (.json (.str message)) } }

/-- A task as it starts. -/
def started (id : JSString) (initial : ProgressFields) (gauge : Bool) : ProgressTask :=
  let state : ProgressState := ⟨id, .pending, ProgressFields.empty.assignDefined initial, 0, 0⟩
  ⟨state, state, 0, gauge, false, false, false⟩

/-- Every emission of the event is safe. -/
def Guarded (env : Surroundings) (r : ProgressReporter) : ReporterEvent → Prop
  | .start id initial gauge =>
    r.tasks.get? id = none → Safe env r id (started id initial gauge)
  | .update id status rest => ∀ t, r.tasks.get? id = some t → t.closed = false →
    r.throttleMs ≤ 0 ∨ t.timer = false → Safe env r id (updated t status rest)
  | .done id patch => ∀ t, r.tasks.get? id = some t → t.closed = false →
    Safe env r id (finished t .done patch)
  | .error id message patch => ∀ t, r.tasks.get? id = some t → t.closed = false →
    Safe env r id (finished (failed t message) .error patch)
  | .timer id => ∀ t, r.tasks.get? id = some t → t.dirty = true → t.closed = false →
    Safe env r id { t with timer := false }
  | .heartbeat =>
    SafeAll env (fun t => !t.closed && decide (t.state.status = .running)) (fun t => t) r.tasks.keys r
  | .close =>
    SafeAll env (fun t => t.dirty && !t.closed) (fun t => { t with timer := false }) r.tasks.keys r

/-- The flags an event leaves if nothing fails. -/
def expected (throttleMs : ℚ) (id : JSString) (t : Option ProgressTask) :
    ReporterEvent → Option TaskFlags
  | .start id' _ _ =>
    if id' = id ∧ t.isNone then some ⟨false, false, false⟩ else t.map ProgressTask.flags
  | .update id' _ _ => t.map fun t =>
    if id' = id then
      if t.closed then t.flags
      else if throttleMs ≤ 0 then ⟨false, t.timer, t.closed⟩
      else if t.timer then ⟨true, t.timer, t.closed⟩
      else ⟨false, true, t.closed⟩
    else t.flags
  | .done id' _ | .error id' _ _ => t.map fun t =>
    if id' = id then if t.closed then t.flags else ⟨false, false, true⟩ else t.flags
  | .timer id' => t.map fun t =>
    if id' = id then
      if t.dirty = false ∨ t.closed then ⟨t.dirty, false, t.closed⟩ else ⟨false, true, t.closed⟩
    else t.flags
  | .heartbeat => t.map fun t =>
    if t.closed = false ∧ t.state.status = .running then ⟨false, t.timer, t.closed⟩ else t.flags
  | .close => t.map fun t => ⟨t.dirty && t.closed, false, t.closed⟩

/-- No exception comes out of an event, no rejection is left unhandled, and every task is as
it would be had nothing failed. -/
structure Contained (env : Surroundings) (r : ProgressReporter) (e : ReporterEvent)
    (p : ProgressReporter × Bool) : Prop where
  uninterrupted : Uninterrupted env r p
  flags : ∀ id, (p.1.tasks.get? id).map ProgressTask.flags =
    expected r.throttleMs id (r.tasks.get? id) e

theorem finish_uninterrupted_iff (own : t.state.id = id) {status : ProgressStatus}
    (patch : ProgressFields) :
    Uninterrupted env r (r.finish env id t status patch) ↔
      (t.closed = false → Safe env r id (finished t status patch)) := by
  unfold finish
  split
  · rename_i closed
    refine iff_of_true (uninterrupted_silent rfl) fun open_ => ?_
    rw [open_] at closed
    cases closed
  · rename_i open_
    have open_ : t.closed = false := by simpa using open_
    have emission : Uninterrupted env r (r.emit env id (finished t status patch)) ↔ _ :=
      emit_uninterrupted_iff own
    exact ⟨fun u _ => emission.mp u, fun safe => emission.mpr (safe open_)⟩

theorem update_uninterrupted_iff (own : t.state.id = id) (status : Option ProgressStatus)
    (rest : ProgressFields) :
    Uninterrupted env r (r.update env id t status rest) ↔
      (t.closed = false → r.throttleMs ≤ 0 ∨ t.timer = false →
        Safe env r id (updated t status rest)) := by
  unfold update
  split
  · rename_i closed
    refine iff_of_true (uninterrupted_silent rfl) fun open_ => ?_
    rw [open_] at closed
    cases closed
  · rename_i open_
    have open_ : t.closed = false := by simpa using open_
    dsimp only
    split
    · rename_i free
      have emission : Uninterrupted env r (r.emit env id (updated t status rest)) ↔ _ :=
        emit_uninterrupted_iff own
      exact ⟨fun u _ _ => emission.mp u, fun safe => emission.mpr (safe open_ (.inl free))⟩
    · rename_i throttled
      split
      · rename_i timer
        refine iff_of_true (uninterrupted_silent rfl) fun _ now => ?_
        rcases now with free | closed
        · exact absurd free throttled
        · rw [closed] at timer
          cases timer
      · rename_i timer
        have timer : t.timer = false := by simpa using timer
        have emission : Uninterrupted env r (r.emitOpening env id (updated t status rest)) ↔ _ :=
          emitOpening_uninterrupted_iff own
        exact ⟨fun u _ _ => emission.mp u, fun safe => emission.mpr (safe open_ (.inr timer))⟩

theorem fireTimer_uninterrupted_iff (own : t.state.id = id) :
    Uninterrupted env r (r.fireTimer env id t) ↔
      (t.dirty = true → t.closed = false → Safe env r id { t with timer := false }) := by
  unfold fireTimer
  dsimp only
  split
  · rename_i idle
    refine iff_of_true (uninterrupted_silent rfl) fun dirty open_ => ?_
    rcases idle with clean | closed
    · rw [dirty] at clean
      cases clean
    · rw [open_] at closed
      cases closed
  · rename_i waits
    obtain ⟨dirty, open_⟩ := not_or.mp waits
    have dirty : t.dirty = true := by simpa using dirty
    have open_ : t.closed = false := by simpa using open_
    have emission : Uninterrupted env r (r.emitOpening env id { t with timer := false }) ↔ _ :=
      emitOpening_uninterrupted_iff own
    exact ⟨fun u _ _ => emission.mp u, fun safe => emission.mpr (safe dirty open_)⟩

theorem uninterrupted_handle_iff (h : r.Owned) {e : ReporterEvent} (hp : r.handle env e = some p) :
    Uninterrupted env r p ↔ Guarded env r e := by
  have nodup : r.tasks.keys.Nodup := r.tasks.nodup
  cases e with
  | start id initial gauge =>
    obtain rfl := Option.some.inj hp
    simp only [start, Guarded]
    cases known : r.tasks.get? id with
    | some t => exact iff_of_true (uninterrupted_silent rfl) fun h => (nomatch h)
    | none =>
      simp only [true_implies]
      exact emit_uninterrupted_iff (t := started id initial gauge) rfl
  | update id status rest =>
    obtain ⟨t, known, rfl⟩ := Option.map_eq_some_iff.mp hp
    simp only [Guarded, known, Option.some.injEq, forall_eq']
    exact update_uninterrupted_iff (h id t known) status rest
  | done id patch =>
    obtain ⟨t, known, rfl⟩ := Option.map_eq_some_iff.mp hp
    simp only [Guarded, known, Option.some.injEq, forall_eq']
    exact finish_uninterrupted_iff (h id t known) patch
  | error id message patch =>
    obtain ⟨t, known, rfl⟩ := Option.map_eq_some_iff.mp hp
    simp only [Guarded, known, Option.some.injEq, forall_eq']
    exact finish_uninterrupted_iff (t := failed t message) (h id t known) patch
  | timer id =>
    obtain ⟨t, known, -, rfl⟩ := handle_timer hp
    simp only [Guarded, known, Option.some.injEq, forall_eq']
    exact fireTimer_uninterrupted_iff (h id t known)
  | heartbeat =>
    obtain rfl := handle_heartbeat hp
    exact forEach_uninterrupted_iff (visits_beat env) nodup
      ⟨rfl, rfl, rfl, rfl, fun _ _ => rfl⟩ fun id _ t known => h id t known
  | close =>
    obtain rfl := Option.some.inj hp
    have like : Like r.tasks.keys { r with beating := false } r :=
      ⟨rfl, rfl, rfl, rfl, fun _ _ => rfl⟩
    have all := forEach_uninterrupted_iff (visits_flush env) nodup like
      fun id _ t known => h id t known
    rw [Guarded, ← all]
    exact ⟨fun h => ⟨h.threw, h.handled⟩, fun h => ⟨h.threw, h.handled⟩⟩

/-! ## The flags -/

theorem flags_set {tasks : Dict JSString ProgressTask} (id' : JSString) :
    ((tasks.set id t).get? id').map ProgressTask.flags =
      if id = id' then some t.flags else (tasks.get? id').map ProgressTask.flags := by
  rw [Dict.get?_set]
  by_cases same : id' = id
  · rw [if_pos same, if_pos same.symm]
    rfl
  · rw [if_neg same, if_neg (Ne.symm same)]

theorem flags_emit (quiet : (r.emit env id t).2 = false) (id' : JSString) :
    ((r.emit env id t).1.tasks.get? id').map ProgressTask.flags =
      if id = id' then some ⟨false, t.timer, t.closed⟩
      else (r.tasks.get? id').map ProgressTask.flags := by
  obtain ⟨data, -, -, tasks⟩ := (emitted quiet).dispatched
  rw [tasks, flags_set]
  rfl

theorem flags_emitOpening (quiet : (r.emitOpening env id t).2 = false) (id' : JSString) :
    ((r.emitOpening env id t).1.tasks.get? id').map ProgressTask.flags =
      if id = id' then some ⟨false, true, t.closed⟩
      else (r.tasks.get? id').map ProgressTask.flags := by
  have first : (r.emit env id t).2 = false → _ := flags_emit
  unfold emitOpening at quiet ⊢
  cases emission : r.emit env id t with
  | mk r₁ threw =>
    rw [emission] at first
    simp only [emission] at quiet
    cases threw with
    | true => cases quiet
    | false =>
      have first : ∀ id', (r₁.tasks.get? id').map ProgressTask.flags = _ := first rfl
      have own := first id
      rw [if_pos rfl] at own
      obtain ⟨t₁, known, flags⟩ := Option.map_eq_some_iff.mp own
      obtain ⟨dirty, -, closed⟩ := TaskFlags.mk.inj flags
      simp only [openWindow, known, put]
      rw [flags_set, first id']
      split
      · rw [ProgressTask.flags, dirty, closed]
      · rfl

/-- What is left of the task of an event, and of the others. -/
theorem flags_at {id' : JSString} (known : r.tasks.get? id = some t)
    (left : ProgressTask → TaskFlags) :
    (if id = id' then some (left t) else (r.tasks.get? id').map ProgressTask.flags) =
      (r.tasks.get? id').map fun t => if id = id' then left t else t.flags := by
  by_cases same : id = id'
  · rw [← same, known]
    simp
  · simp [same]

theorem flags_finish {status : ProgressStatus} {patch : ProgressFields}
    (quiet : (r.finish env id t status patch).2 = false) (id' : JSString) :
    ((r.finish env id t status patch).1.tasks.get? id').map ProgressTask.flags =
      if id = id' then some (if t.closed then t.flags else ⟨false, false, true⟩)
      else (r.tasks.get? id').map ProgressTask.flags := by
  by_cases closed : t.closed = true
  · have done : r.finish env id t status patch = (r.put id t, false) := if_pos closed
    rw [done, if_pos closed]
    exact flags_set id'
  · have done : r.finish env id t status patch = r.emit env id (finished t status patch) :=
      if_neg closed
    rw [done] at quiet ⊢
    rw [flags_emit quiet, if_neg closed]
    rfl

theorem flags_update {status : Option ProgressStatus} {rest : ProgressFields}
    (known : r.tasks.get? id = some t) (quiet : (r.update env id t status rest).2 = false)
    (id' : JSString) :
    ((r.update env id t status rest).1.tasks.get? id').map ProgressTask.flags =
      expected r.throttleMs id' (r.tasks.get? id') (.update id status rest) := by
  rw [expected, ← flags_at known fun t =>
    if t.closed then t.flags
    else if r.throttleMs ≤ 0 then ⟨false, t.timer, t.closed⟩
    else if t.timer then ⟨true, t.timer, t.closed⟩
    else ⟨false, true, t.closed⟩]
  unfold update at quiet ⊢
  split
  · split
    · rename_i same
      rw [← same, known]
      rfl
    · rfl
  · rename_i open_
    rw [if_neg open_] at quiet
    dsimp only at quiet ⊢
    split
    · rename_i free
      rw [if_pos free] at quiet
      exact flags_emit quiet id'
    · rename_i throttled
      rw [if_neg throttled] at quiet
      split
      · exact flags_set id'
      · rename_i timer
        rw [if_neg timer] at quiet
        exact flags_emitOpening quiet id'

theorem flags_start {initial : ProgressFields} {gauge : Bool}
    (quiet : (r.start env id initial gauge).2 = false) (id' : JSString) :
    ((r.start env id initial gauge).1.tasks.get? id').map ProgressTask.flags =
      expected r.throttleMs id' (r.tasks.get? id') (.start id initial gauge) := by
  unfold start at quiet ⊢
  simp only [expected]
  cases known : r.tasks.get? id with
  | some t =>
    simp only
    split
    · rename_i new
      rw [← new.1, known] at new
      cases new.2
    · rfl
  | none =>
    simp only [known] at quiet
    rw [flags_emit quiet]
    by_cases same : id = id'
    · rw [if_pos same, if_pos ⟨same, by rw [← same, known]; rfl⟩]
    · rw [if_neg same, if_neg fun new => same new.1]

theorem flags_fireTimer (known : r.tasks.get? id = some t)
    (quiet : (r.fireTimer env id t).2 = false) (id' : JSString) :
    ((r.fireTimer env id t).1.tasks.get? id').map ProgressTask.flags =
      expected r.throttleMs id' (r.tasks.get? id') (.timer id) := by
  rw [expected, ← flags_at known fun t =>
    if t.dirty = false ∨ t.closed then ⟨t.dirty, false, t.closed⟩
    else ⟨false, true, t.closed⟩]
  unfold fireTimer at quiet ⊢
  dsimp only at quiet ⊢
  split
  · exact flags_set id'
  · rename_i waits
    rw [if_neg waits] at quiet
    exact flags_emitOpening quiet id'

theorem flags_handle {e : ReporterEvent} (hp : r.handle env e = some p) (quiet : p.2 = false)
    (id : JSString) :
    (p.1.tasks.get? id).map ProgressTask.flags =
      expected r.throttleMs id (r.tasks.get? id) e := by
  have nodup : r.tasks.keys.Nodup := r.tasks.nodup
  cases e with
  | start id' initial gauge =>
    obtain rfl := Option.some.inj hp
    exact flags_start quiet id
  | update id' status rest =>
    obtain ⟨t, known, rfl⟩ := Option.map_eq_some_iff.mp hp
    exact flags_update known quiet id
  | done id' patch =>
    obtain ⟨t, known, rfl⟩ := Option.map_eq_some_iff.mp hp
    rw [flags_finish quiet]
    exact flags_at known fun t => if t.closed then t.flags else ⟨false, false, true⟩
  | error id' message patch =>
    obtain ⟨t, known, rfl⟩ := Option.map_eq_some_iff.mp hp
    rw [flags_finish quiet]
    exact flags_at known fun t => if t.closed then t.flags else ⟨false, false, true⟩
  | timer id' =>
    obtain ⟨t, known, -, rfl⟩ := handle_timer hp
    exact flags_fireTimer known quiet id
  | heartbeat =>
    obtain rfl := handle_heartbeat hp
    rw [flags_forEach (visits_beat env) nodup quiet]
    cases known : r.tasks.get? id with
    | none => rfl
    | some t => simp [expected, visited, Dict.mem_keys, known]
  | close =>
    obtain rfl := Option.some.inj hp
    rw [flags_forEach (visits_flush env) nodup quiet]
    cases known : r.tasks.get? id with
    | none => rfl
    | some t =>
      cases dirty : t.dirty <;> cases closed : t.closed <;>
        simp [expected, visited, ProgressTask.flags, Dict.mem_keys, known, dirty, closed]

/-! ## Over a run -/

theorem owned_handle (h : r.Owned) {e : ReporterEvent} (hp : r.handle env e = some p) :
    p.1.Owned := by
  have finishes : ∀ {id t}, t.state.id = id → ∀ status patch,
      (r.finish env id t status patch).1.Owned := by
    intro id t own status patch
    unfold finish
    split
    · exact owned_set h own rfl
    · exact owned_emit h own
  cases e with
  | start id initial gauge =>
    obtain rfl := Option.some.inj hp
    unfold start
    split
    · exact h
    · exact owned_emit h rfl
  | update id status rest =>
    obtain ⟨t, known, rfl⟩ := Option.map_eq_some_iff.mp hp
    have own : (updated t status rest).state.id = id := h id t known
    unfold update
    split
    · exact h
    · dsimp only
      split
      · exact owned_emit h own
      · split
        · exact owned_set (t := { updated t status rest with dirty := true }) h own rfl
        · exact owned_emitOpening h own
  | done id patch =>
    obtain ⟨t, known, rfl⟩ := Option.map_eq_some_iff.mp hp
    exact finishes (h id t known) .done patch
  | error id message patch =>
    obtain ⟨t, known, rfl⟩ := Option.map_eq_some_iff.mp hp
    exact finishes (t := failed t message) (h id t known) .error patch
  | timer id =>
    obtain ⟨t, known, -, rfl⟩ := handle_timer hp
    unfold fireTimer
    dsimp only
    split
    · exact owned_set (t := { t with timer := false }) h (h id t known) rfl
    · exact owned_emitOpening h (h id t known)
  | heartbeat =>
    obtain rfl := handle_heartbeat hp
    exact owned_forEach (visits_beat env) _ h
  | close =>
    obtain rfl := Option.some.inj hp
    exact owned_forEach (visits_flush env) r.tasks.keys (r := { r with beating := false }) h

/-- **What a call lets out.** In any state of a run: nothing comes out of an event, and the
flags of the tasks are as if nothing had failed, exactly if the observer takes what fails in
its emissions, and `JSON.stringify` their messages with `meta`. -/
theorem reporter_contains {type : Option JSString}
    {throttleMs heartbeatMs maxPacketBytes : Option ℚ} {es : List (ReporterEvent × Surroundings)}
    (h : exec step (create type throttleMs heartbeatMs maxPacketBytes) es = some r)
    {e : ReporterEvent} (hp : r.handle env e = some p) :
    Contained env r e p ↔ Guarded env r e := by
  have owned : r.Owned := by
    apply exec_invariant Owned _ h
    · intro id t known
      cases known
    · intro r e r' owned hstep
      obtain ⟨p, hp, rfl⟩ := Option.map_eq_some_iff.mp hstep
      exact owned_handle owned hp
  rw [← uninterrupted_handle_iff owned hp]
  constructor
  · exact Contained.uninterrupted
  · exact fun u => ⟨u, flags_handle hp u.threw⟩

/-! A sink that throws, and then `meta` that cannot be printed. -/

/-- The sink throws, and the observer takes it. -/
def rough : Surroundings := ⟨0, fun _ => Option.none, fun _ => .throws, fun _ _ => false⟩

def begun : List (ReporterEvent × Surroundings) := [(.start (lit "t") .empty false, calm)]

theorem reporter_contains_rough :
    ∃ r p, exec step (create none (some 100) none none) begun = some r ∧
      r.handle rough (.update (lit "t") Option.none (percent 1)) = some p ∧
      Contained rough r (.update (lit "t") Option.none (percent 1)) p := by
  have bare : ((exec step (create none (some 100) none none) begun).bind fun r =>
      (r.tasks.get? (lit "t")).map fun t => t.state.fields .metadata) = some Option.none := by
    decide +kernel
  obtain ⟨r, hexec, found⟩ := Option.bind_eq_some_iff.mp bare
  obtain ⟨t, known, metadata⟩ := Option.map_eq_some_iff.mp found
  have hp : r.handle rough (.update (lit "t") Option.none (percent 1)) =
      some (r.update rough (lit "t") t Option.none (percent 1)) := by
    simp only [handle, known]
    rfl
  refine ⟨r, _, hexec, hp, (reporter_contains hexec hp).mpr fun t' known' _ _ => ?_⟩
  obtain rfl := Option.some.inj (known.symm.trans known')
  have none_ : (snapshot rough r (lit "t") (updated t Option.none (percent 1))).fields
      .metadata = Option.none := by
    unfold snapshot
    have unmeasured : (if (updated t Option.none (percent 1)).gauge = true then
        rough.measure (lit "t") else Option.none) = Option.none := ite_self _
    rw [unmeasured]
    simp [updated, ProgressFields.assignDefined, percent, ProgressFields.put,
      ProgressFields.empty, metadata]
  exact ⟨fun _ _ => rfl, fun full => absurd none_ full, fun full => absurd none_ full, fun _ => rfl⟩

/-- The exception comes out of `update`, and the throttle window is not opened. -/
theorem unprintable_meta_escapes :
    ∃ r p, exec step (create none (some 100) none none) begun = some r ∧
      r.handle calm (.update (lit "t") Option.none (ProgressFields.empty.put .metadata .unprintable)) =
        some p ∧ p.2 = true ∧
      (p.1.tasks.get? (lit "t")).map ProgressTask.flags = some ⟨false, false, false⟩ ∧
      expected r.throttleMs (lit "t") (r.tasks.get? (lit "t"))
        (.update (lit "t") Option.none (ProgressFields.empty.put .metadata .unprintable)) =
        some ⟨false, true, false⟩ := by
  have done : ((exec step (create none (some 100) none none) begun).bind fun r =>
      (r.handle calm (.update (lit "t") Option.none
        (ProgressFields.empty.put .metadata .unprintable))).map fun p =>
          (p.2, (p.1.tasks.get? (lit "t")).map ProgressTask.flags,
            expected r.throttleMs (lit "t") (r.tasks.get? (lit "t"))
              (.update (lit "t") Option.none (ProgressFields.empty.put .metadata .unprintable)))) =
      some (true, some ⟨false, false, false⟩, some ⟨false, true, false⟩) := by
    decide +kernel
  obtain ⟨r, hexec, rest⟩ := Option.bind_eq_some_iff.mp done
  obtain ⟨p, hp, values⟩ := Option.map_eq_some_iff.mp rest
  simp only [Prod.mk.injEq] at values
  exact ⟨r, p, hexec, hp, values⟩

end ProgressReporter

end LemonModel
