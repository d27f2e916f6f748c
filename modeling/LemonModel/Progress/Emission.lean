import LemonModel.Progress.Reporter

/-!
# Emissions that fail

The sink, a gauge and the observer of errors may fail, and `meta` may be a value that cannot
be printed. An emission is contained exactly if it is `Safe`; a heartbeat and `close` go
from task to task until one is not.
-/

namespace LemonModel

open Text

/-- What the throttle and the end of a task are decided by. -/
structure TaskFlags where
  dirty : Bool
  timer : Bool
  closed : Bool
  deriving DecidableEq

def ProgressTask.flags (t : ProgressTask) : TaskFlags := ⟨t.dirty, t.timer, t.closed⟩

namespace ProgressReporter

variable {env : Surroundings} {r r' : ProgressReporter} {id : JSString} {t : ProgressTask}
  {p : ProgressReporter × Bool}

/-! ## One emission -/

/-- The snapshot of an emission, before `meta` may be left out. -/
def snapshot (env : Surroundings) (r : ProgressReporter) (id : JSString) (t : ProgressTask) :
    ProgressState :=
  let snapshot : ProgressState := { t.state with ts := env.now, seq := r.seq + 1 }
  match if t.gauge then env.measure id else none with
  | some measure => { snapshot with fields := merge snapshot.fields measure }
  | none => snapshot

/-- What fails in an emission is told to an observer that takes it, and a message with `meta`
can be printed. -/
structure Safe (env : Surroundings) (r : ProgressReporter) (id : JSString) (t : ProgressTask) :
    Prop where
  gauge : t.gauge = true → env.measure id = none → env.observer id .gauge = false
  printable : (snapshot env r id t).fields .metadata ≠ none →
    messageBytes r.type (snapshot env r id t) (r.mid + 1) ≠ none
  size : (snapshot env r id t).fields .metadata ≠ none → ∀ bytes,
    messageBytes r.type (snapshot env r id t) (r.mid + 1) = some bytes →
      r.maxPacketBytes < (bytes : ℚ) → env.observer id .size = false
  sink : env.sink id ≠ .returns → env.observer id .sink = false

/-- A rejection of the sink is told to an observer that takes it. -/
def Handled (env : Surroundings) (sent : List ProgressState) : Prop :=
  ∀ s ∈ sent, env.sink s.id = .rejects → env.observer s.id .sink = false

/-- No exception comes out, and no rejection is left unhandled. -/
structure Uninterrupted (env : Surroundings) (r : ProgressReporter) (p : ProgressReporter × Bool) :
    Prop where
  threw : p.2 = false
  handled : ∀ new, p.1.sent = new ++ r.sent → Handled env new

/-- What is left of an emission that no exception comes out of. -/
structure Emitted (r : ProgressReporter) (id : JSString) (t : ProgressTask)
    (r' : ProgressReporter) : Prop where
  type : r'.type = r.type
  throttleMs : r'.throttleMs = r.throttleMs
  maxPacketBytes : r'.maxPacketBytes = r.maxPacketBytes
  seq : r'.seq = r.seq + 1
  mid : r'.mid = r.mid + 1
  dispatched : ∃ data, data.id = t.state.id ∧ r'.sent = data :: r.sent ∧
    r'.tasks = r.tasks.set id { t with dirty := false, last := data, mid := r.mid + 1 }

theorem dispatch_safe_iff (data : ProgressState) :
    ((r.dispatch env id t data).2 = false ∧
        (env.sink id = .rejects → env.observer id .sink = false)) ↔
      (env.sink id ≠ .returns → env.observer id .sink = false) := by
  simp only [dispatch]
  cases env.sink id <;> cases env.observer id .sink <;> simp

theorem pack_safe_iff (s : ProgressState) :
    ((r.pack env id t s).2 = false ∧
        (env.sink id = .rejects → env.observer id .sink = false)) ↔
      (s.fields .metadata ≠ none → messageBytes r.type s (r.mid + 1) ≠ none) ∧
        (s.fields .metadata ≠ none → ∀ bytes, messageBytes r.type s (r.mid + 1) = some bytes →
          r.maxPacketBytes < (bytes : ℚ) → env.observer id .size = false) ∧
        (env.sink id ≠ .returns → env.observer id .sink = false) := by
  unfold pack
  by_cases bare : s.fields .metadata = none
  · simp only [bare, if_true, ne_eq, not_true_eq_false, false_implies, true_and]
    exact dispatch_safe_iff s
  · simp only [bare, if_false, ne_eq, not_false_eq_true, true_implies]
    cases printed : messageBytes r.type s (r.mid + 1) with
    | none => simp
    | some bytes =>
      simp only [reduceCtorEq, not_false_eq_true, true_and, Option.some.injEq, forall_eq']
      by_cases large : r.maxPacketBytes < (bytes : ℚ)
      · simp only [large, if_true, true_implies]
        cases loud : env.observer id .size with
        | true => simp
        | false =>
          simp only [Bool.false_eq_true, if_false, true_and]
          exact dispatch_safe_iff _
      · simp only [large, if_false, false_implies, true_and]
        exact dispatch_safe_iff s

theorem emit_safe_iff :
    ((r.emit env id t).2 = false ∧
        (env.sink id = .rejects → env.observer id .sink = false)) ↔ Safe env r id t := by
  have safe : Safe env r id t ↔
      (t.gauge = true → env.measure id = none → env.observer id .gauge = false) ∧
        (({ r with seq := r.seq + 1 } : ProgressReporter).pack env id { t with dirty := false }
          (snapshot env r id t)).2 = false ∧
        (env.sink id = .rejects → env.observer id .sink = false) := by
    rw [pack_safe_iff]
    exact ⟨fun h => ⟨h.gauge, h.printable, h.size, h.sink⟩,
      fun ⟨gauge, printable, size, sink⟩ => ⟨gauge, printable, size, sink⟩⟩
  rw [safe]
  unfold emit snapshot
  cases t.gauge with
  | false => simp
  | true =>
    cases env.measure id with
    | some measure => simp
    | none =>
      cases env.observer id .gauge with
      | true => simp
      | false => simp

theorem pack_emitted (s : ProgressState) (own : s.id = t.state.id)
    (quiet : (r.pack env id t s).2 = false) :
    ∃ data : ProgressState, data.id = t.state.id ∧ (r.pack env id t s).1 =
      { r with
        mid := r.mid + 1
        tasks := r.tasks.set id { t with last := data, mid := r.mid + 1 }
        sent := data :: r.sent } := by
  unfold pack at quiet ⊢
  dsimp only at quiet ⊢
  split
  · exact ⟨s, own, rfl⟩
  · rename_i full
    rw [if_neg full] at quiet
    split
    · rename_i unprinted
      simp [unprinted] at quiet
    · rename_i bytes printed
      simp only [printed] at quiet
      split
      · rename_i large
        rw [if_pos large] at quiet
        split
        · rename_i loud
          simp [loud] at quiet
        · exact ⟨strip s, own, rfl⟩
      · exact ⟨s, own, rfl⟩

theorem emitted (quiet : (r.emit env id t).2 = false) : Emitted r id t (r.emit env id t).1 := by
  have packed : ∀ s : ProgressState, s.id = t.state.id →
      (({ r with seq := r.seq + 1 } : ProgressReporter).pack env id
        { t with dirty := false } s).2 = false →
      Emitted r id t (({ r with seq := r.seq + 1 } : ProgressReporter).pack env id
        { t with dirty := false } s).1 := by
    intro s own quiet
    obtain ⟨data, same, eq⟩ := pack_emitted (t := { t with dirty := false }) s own quiet
    rw [eq]
    exact ⟨rfl, rfl, rfl, rfl, rfl, data, same, rfl, rfl⟩
  unfold emit at quiet ⊢
  dsimp only at quiet ⊢
  split
  · rename_i gauge
    rw [if_pos gauge] at quiet
    split
    · rename_i measure measured
      simp only [measured] at quiet
      exact packed _ rfl quiet
    · rename_i failed
      simp only [failed] at quiet
      split
      · rename_i loud
        simp [loud] at quiet
      · rename_i silent
        rw [if_neg silent] at quiet
        exact packed _ rfl quiet
  · rename_i plain
    rw [if_neg plain] at quiet
    exact packed _ rfl quiet

/-- What was sent stays sent. -/
theorem suffix_emit (env : Surroundings) (r : ProgressReporter) (id : JSString) (t : ProgressTask) :
    r.sent <:+ (r.emit env id t).1.sent := by
  have packed : ∀ t s, r.sent <:+
      (({ r with seq := r.seq + 1 } : ProgressReporter).pack env id t s).1.sent := by
    intro t s
    unfold pack
    dsimp only
    split
    · exact List.suffix_cons _ _
    · split
      · exact List.suffix_rfl
      · split
        · split
          · exact List.suffix_rfl
          · exact List.suffix_cons _ _
        · exact List.suffix_cons _ _
  unfold emit
  dsimp only
  split
  · split
    · exact packed _ _
    · split
      · exact List.suffix_rfl
      · exact packed _ _
  · exact packed _ _

/-- **An emission** is contained exactly if it is safe. -/
theorem emit_uninterrupted_iff (own : t.state.id = id) :
    Uninterrupted env r (r.emit env id t) ↔ Safe env r id t := by
  rw [← emit_safe_iff]
  constructor
  · rintro ⟨threw, handled⟩
    obtain ⟨data, same, sent, -⟩ := (emitted threw).dispatched
    have told := handled [data] sent data (List.mem_singleton_self data)
    rw [same, own] at told
    exact ⟨threw, told⟩
  · rintro ⟨threw, told⟩
    refine ⟨threw, fun new split s mem => ?_⟩
    obtain ⟨data, same, sent, -⟩ := (emitted threw).dispatched
    obtain rfl : new = [data] := List.append_cancel_right (split.symm.trans sent)
    obtain rfl := List.mem_singleton.mp mem
    rw [same, own]
    exact told

/-- Nothing is emitted. -/
theorem uninterrupted_silent (sent : r'.sent = r.sent) : Uninterrupted env r (r', false) where
  threw := rfl
  handled new split s mem := by
    have none_ : new = [] := List.append_left_eq_self.mp (split.symm.trans sent)
    rw [none_] at mem
    cases mem

theorem emitOpening_uninterrupted_iff (own : t.state.id = id) :
    Uninterrupted env r (r.emitOpening env id t) ↔ Safe env r id t := by
  rw [← emit_uninterrupted_iff own]
  unfold emitOpening
  cases emission : r.emit env id t with
  | mk r₁ threw =>
    cases threw with
    | true => rfl
    | false =>
      have sent : (r₁.openWindow id).sent = r₁.sent := by
        unfold openWindow
        split <;> rfl
      constructor
      · exact fun h => ⟨rfl, fun new split => h.handled new (sent.trans split)⟩
      · exact fun h => ⟨rfl, fun new split => h.handled new (sent.symm.trans split)⟩

/-! ## The emissions of a heartbeat, and of `close` -/

/-- What is done with each task: it is prepared, and then perhaps there is an emission. -/
structure Visits (env : Surroundings) (emits : ProgressTask → Bool)
    (prep : ProgressTask → ProgressTask)
    (visit : ProgressReporter → JSString → ProgressTask → ProgressReporter × Bool) : Prop where
  own : ∀ t, (prep t).state.id = t.state.id
  emitting : ∀ r id t, emits t = true → visit r id t = r.emit env id (prep t)
  silent : ∀ r id t, emits t = false → r.tasks.get? id = some t →
    ∃ tasks, visit r id t = ({ r with tasks := tasks }, false) ∧
      ∀ id', tasks.get? id' = if id' = id then some (prep t) else r.tasks.get? id'

theorem visits_beat (env : Surroundings) :
    Visits env (fun t => !t.closed && decide (t.state.status = .running)) (fun t => t)
      (beat env) where
  own _ := rfl
  emitting r id t emits := by
    have running : t.closed = false ∧ t.state.status = .running := by simpa using emits
    exact if_pos running
  silent r id t emits known := by
    have idle : ¬(t.closed = false ∧ t.state.status = .running) := by simpa using emits
    refine ⟨r.tasks, if_neg idle, fun id' => ?_⟩
    split
    · rename_i same
      rw [same, known]
    · rfl

theorem visits_flush (env : Surroundings) :
    Visits env (fun t => t.dirty && !t.closed) (fun t => { t with timer := false }) (flush env) where
  own _ := rfl
  emitting r id t emits := by
    have waits : t.dirty = true ∧ t.closed = false := by simpa using emits
    exact if_pos waits
  silent r id t emits _ := by
    have idle : ¬(t.dirty = true ∧ t.closed = false) := by
      rintro ⟨dirty, open_⟩
      simp [dirty, open_] at emits
    exact ⟨r.tasks.set id { t with timer := false }, if_neg idle, fun id' => Dict.get?_set ..⟩

/-- Each emission is safe; it is numbered when it comes. -/
def SafeAll (env : Surroundings) (emits : ProgressTask → Bool) (prep : ProgressTask → ProgressTask) :
    List JSString → ProgressReporter → Prop
  | [], _ => True
  | id :: ids, r =>
    match r.tasks.get? id with
    | none => SafeAll env emits prep ids r
    | some t =>
      if emits t then
        Safe env r id (prep t) ∧
          SafeAll env emits prep ids { r with seq := r.seq + 1, mid := r.mid + 1 }
      else SafeAll env emits prep ids r

/-- The same numbers, and the same tasks under these ids. -/
structure Like (ids : List JSString) (r r' : ProgressReporter) : Prop where
  type : r.type = r'.type
  maxPacketBytes : r.maxPacketBytes = r'.maxPacketBytes
  seq : r.seq = r'.seq
  mid : r.mid = r'.mid
  tasks : ∀ id ∈ ids, r.tasks.get? id = r'.tasks.get? id

theorem Like.safe_iff {ids : List JSString} (like : Like ids r r') :
    Safe env r id t ↔ Safe env r' id t := by
  have same : snapshot env r id t = snapshot env r' id t := by
    unfold snapshot
    rw [like.seq]
  constructor
  · rintro ⟨gauge, printable, size, sink⟩
    rw [same, like.type, like.mid] at printable size
    rw [like.maxPacketBytes] at size
    exact ⟨gauge, printable, size, sink⟩
  · rintro ⟨gauge, printable, size, sink⟩
    rw [← same, ← like.type, ← like.mid] at printable size
    rw [← like.maxPacketBytes] at size
    exact ⟨gauge, printable, size, sink⟩

/-- The flags a visit leaves. -/
def visited (emits : ProgressTask → Bool) (prep : ProgressTask → ProgressTask) (t : ProgressTask) :
    TaskFlags :=
  if emits t then ⟨false, (prep t).timer, (prep t).closed⟩ else (prep t).flags

variable {emits : ProgressTask → Bool} {prep : ProgressTask → ProgressTask}
  {visit : ProgressReporter → JSString → ProgressTask → ProgressReporter × Bool}
  {ids : List JSString}

/-- What a visit that no exception comes out of leaves. -/
structure AfterVisit (emits : ProgressTask → Bool) (prep : ProgressTask → ProgressTask)
    (r : ProgressReporter) (id : JSString) (t : ProgressTask) (r' : ProgressReporter) : Prop where
  type : r'.type = r.type
  maxPacketBytes : r'.maxPacketBytes = r.maxPacketBytes
  seq : r'.seq = if emits t then r.seq + 1 else r.seq
  mid : r'.mid = if emits t then r.mid + 1 else r.mid
  others : ∀ id', id' ≠ id → r'.tasks.get? id' = r.tasks.get? id'
  flags : (r'.tasks.get? id).map ProgressTask.flags = some (visited emits prep t)

theorem after_visit (visits : Visits env emits prep visit) (known : r.tasks.get? id = some t)
    (quiet : (visit r id t).2 = false) : AfterVisit emits prep r id t (visit r id t).1 := by
  cases yes : emits t with
  | true =>
    rw [visits.emitting r id t yes] at quiet ⊢
    have h := emitted quiet
    obtain ⟨data, -, -, tasks⟩ := h.dispatched
    refine ⟨h.type, h.maxPacketBytes, ?_, ?_, fun id' other => ?_, ?_⟩
    · rw [h.seq, yes, if_pos rfl]
    · rw [h.mid, yes, if_pos rfl]
    · rw [tasks, Dict.get?_set_ne _ _ other]
    · rw [tasks, Dict.get?_set_self, visited, if_pos yes]
      rfl
  | false =>
    obtain ⟨tasks, eq, get⟩ := visits.silent r id t yes known
    rw [eq]
    refine ⟨rfl, rfl, ?_, ?_, fun id' other => ?_, ?_⟩
    · rw [yes]
      rfl
    · rw [yes]
      rfl
    · exact (get id').trans (if_neg other)
    · rw [get id, if_pos rfl, visited, yes]
      rfl

theorem suffix_visit (visits : Visits env emits prep visit) (known : r.tasks.get? id = some t) :
    r.sent <:+ (visit r id t).1.sent := by
  cases yes : emits t with
  | true =>
    rw [visits.emitting r id t yes]
    exact suffix_emit env r id (prep t)
  | false =>
    obtain ⟨tasks, eq, -⟩ := visits.silent r id t yes known
    rw [eq]

theorem suffix_forEach (visits : Visits env emits prep visit) (ids : List JSString)
    (r : ProgressReporter) : r.sent <:+ (forEach visit ids r).1.sent := by
  induction ids generalizing r with
  | nil => exact List.suffix_rfl
  | cons id ids ih =>
    unfold forEach
    cases known : r.tasks.get? id with
    | none => exact ih r
    | some t =>
      have first := suffix_visit visits known
      simp only
      cases round : visit r id t with
      | mk r₁ threw =>
        rw [round] at first
        cases threw with
        | true => exact first
        | false => exact first.trans (ih r₁)

/-- A visit is contained exactly if its emission is safe. -/
theorem visit_uninterrupted_iff (visits : Visits env emits prep visit)
    (known : r.tasks.get? id = some t) (own : t.state.id = id) :
    Uninterrupted env r (visit r id t) ↔ (emits t = true → Safe env r id (prep t)) := by
  cases yes : emits t with
  | true =>
    rw [visits.emitting r id t yes, emit_uninterrupted_iff ((visits.own t).trans own)]
    simp
  | false =>
    obtain ⟨tasks, eq, -⟩ := visits.silent r id t yes known
    rw [eq]
    exact iff_of_true (uninterrupted_silent rfl) fun h => (nomatch h)

/-- A visit, and then the others. -/
theorem uninterrupted_append {r₁ : ProgressReporter} (first : r.sent <:+ r₁.sent)
    (then_ : r₁.sent <:+ p.1.sent) :
    Uninterrupted env r p ↔ Uninterrupted env r (r₁, false) ∧ Uninterrupted env r₁ p := by
  obtain ⟨new₁, eq₁⟩ := first
  obtain ⟨new₂, eq₂⟩ := then_
  constructor
  · rintro ⟨threw, handled⟩
    have both := handled (new₂ ++ new₁) (by rw [List.append_assoc, eq₁, eq₂])
    refine ⟨⟨rfl, fun new split s mem => ?_⟩, threw, fun new split s mem => ?_⟩
    · obtain rfl : new = new₁ := List.append_cancel_right (split.symm.trans eq₁.symm)
      exact both s (List.mem_append_right _ mem)
    · obtain rfl : new = new₂ := List.append_cancel_right (split.symm.trans eq₂.symm)
      exact both s (List.mem_append_left _ mem)
  · rintro ⟨h₁, h₂⟩
    refine ⟨h₂.threw, fun new split s mem => ?_⟩
    have whole : new = new₂ ++ new₁ := by
      have same : new ++ r.sent = new₂ ++ new₁ ++ r.sent := by
        rw [← split, List.append_assoc, eq₁, eq₂]
      exact List.append_cancel_right same
    rw [whole] at mem
    rcases List.mem_append.mp mem with mem | mem
    · exact h₂.handled new₂ eq₂.symm s mem
    · exact h₁.handled new₁ eq₁.symm s mem

theorem forEach_uninterrupted_iff (visits : Visits env emits prep visit) (nodup : ids.Nodup)
    {r r₀ : ProgressReporter} (like : Like ids r r₀)
    (own : ∀ id ∈ ids, ∀ t, r.tasks.get? id = some t → t.state.id = id) :
    Uninterrupted env r (forEach visit ids r) ↔ SafeAll env emits prep ids r₀ := by
  induction ids generalizing r r₀ with
  | nil => exact iff_of_true (uninterrupted_silent rfl) trivial
  | cons id ids ih =>
    obtain ⟨other, nodup⟩ := List.nodup_cons.mp nodup
    have known₀ := like.tasks id List.mem_cons_self
    have tail : Like ids r r₀ := ⟨like.type, like.maxPacketBytes, like.seq, like.mid,
      fun id' mem => like.tasks id' (List.mem_cons_of_mem _ mem)⟩
    unfold forEach SafeAll
    rw [← known₀]
    cases known : r.tasks.get? id with
    | none => exact ih nodup tail fun id' mem => own id' (List.mem_cons_of_mem _ mem)
    | some t =>
      have contained := visit_uninterrupted_iff visits known (own id List.mem_cons_self t known)
      have first := suffix_visit visits known
      have after := after_visit visits known
      simp only
      cases round : visit r id t with
      | mk r₁ threw =>
        rw [round] at contained first after
        cases threw with
        | true =>
          refine iff_of_false (fun h => nomatch h.threw) fun safe => ?_
          have whole : emits t = true → Safe env r id (prep t) := by
            intro yes
            rw [if_pos yes] at safe
            exact like.safe_iff.mpr safe.1
          cases (contained.mpr whole).threw
        | false =>
          have after := after rfl
          have tasks : ∀ id' ∈ ids, r₁.tasks.get? id' = r₀.tasks.get? id' := by
            intro id' mem
            rw [after.others id' fun same => other (same ▸ mem)]
            exact like.tasks id' (List.mem_cons_of_mem _ mem)
          have own₁ : ∀ id' ∈ ids, ∀ t', r₁.tasks.get? id' = some t' → t'.state.id = id' := by
            intro id' mem t' found
            rw [after.others id' fun same => other (same ▸ mem)] at found
            exact own id' (List.mem_cons_of_mem _ mem) t' found
          have seq := after.seq
          have mid := after.mid
          rw [uninterrupted_append first (suffix_forEach visits ids r₁), contained, like.safe_iff]
          cases yes : emits t with
          | true =>
            rw [yes, if_pos rfl] at seq mid
            have like₁ : Like ids r₁ { r₀ with seq := r₀.seq + 1, mid := r₀.mid + 1 } :=
              ⟨after.type.trans like.type, after.maxPacketBytes.trans like.maxPacketBytes,
                seq.trans (congrArg (· + 1) like.seq), mid.trans (congrArg (· + 1) like.mid), tasks⟩
            rw [ih nodup like₁ own₁]
            simp
          | false =>
            rw [yes, if_neg Bool.false_ne_true] at seq mid
            have like₁ : Like ids r₁ r₀ :=
              ⟨after.type.trans like.type, after.maxPacketBytes.trans like.maxPacketBytes,
                seq.trans like.seq, mid.trans like.mid, tasks⟩
            rw [ih nodup like₁ own₁]
            simp

/-- Without an exception every task is visited. -/
theorem flags_forEach (visits : Visits env emits prep visit) (nodup : ids.Nodup)
    {r : ProgressReporter} (quiet : (forEach visit ids r).2 = false) (id : JSString) :
    ((forEach visit ids r).1.tasks.get? id).map ProgressTask.flags =
      (r.tasks.get? id).map fun t => if id ∈ ids then visited emits prep t else t.flags := by
  induction ids generalizing r with
  | nil =>
    simp only [List.not_mem_nil, if_false]
    rfl
  | cons id₁ ids ih =>
    obtain ⟨other, nodup⟩ := List.nodup_cons.mp nodup
    unfold forEach at quiet ⊢
    cases known : r.tasks.get? id₁ with
    | none =>
      simp only [known] at quiet
      simp only
      rw [ih nodup quiet]
      cases found : r.tasks.get? id with
      | none => rfl
      | some t =>
        have apart : id ≠ id₁ := by
          rintro rfl
          rw [known] at found
          cases found
        simp [apart]
    | some t =>
      have after := after_visit visits known
      simp only [known] at quiet
      simp only
      cases round : visit r id₁ t with
      | mk r₁ threw =>
        rw [round] at after
        simp only [round] at quiet
        cases threw with
        | true => cases quiet
        | false =>
          have after := after rfl
          simp only at quiet ⊢
          rw [ih nodup quiet]
          by_cases same : id = id₁
          · rw [same, known]
            simpa [other] using after.flags
          · rw [after.others id same]
            simp [same]

/-! ## The tasks keep their names -/

def Owned (r : ProgressReporter) : Prop := ∀ id t, r.tasks.get? id = some t → t.state.id = id

theorem owned_set (h : r.Owned) (own : t.state.id = id) (tasks : r'.tasks = r.tasks.set id t) :
    r'.Owned := by
  intro id' t' found
  rw [tasks, Dict.get?_set] at found
  split at found
  · rename_i same
    obtain rfl := Option.some.inj found
    exact own.trans same.symm
  · exact h id' t' found

theorem owned_emit (h : r.Owned) (own : t.state.id = id) : (r.emit env id t).1.Owned := by
  have packed : ∀ s, (({ r with seq := r.seq + 1 } : ProgressReporter).pack env id
      { t with dirty := false } s).1.Owned := by
    intro s
    have put : ∀ last mid, (r.put id { t with dirty := false, last := last, mid := mid }).Owned :=
      fun last mid => owned_set (t := { t with dirty := false, last := last, mid := mid }) h own rfl
    unfold pack
    dsimp only
    split
    · exact put s _
    · split
      · exact put t.last _
      · split
        · split
          · exact put t.last _
          · exact put (strip s) _
        · exact put s _
  unfold emit
  dsimp only
  split
  · split
    · exact packed _
    · split
      · exact owned_set (t := { t with dirty := false }) h own rfl
      · exact packed _
  · exact packed _

theorem owned_emitOpening (h : r.Owned) (own : t.state.id = id) :
    (r.emitOpening env id t).1.Owned := by
  have first : (r.emit env id t).1.Owned := owned_emit h own
  unfold emitOpening
  cases emission : r.emit env id t with
  | mk r₁ threw =>
    rw [emission] at first
    cases threw with
    | true => exact first
    | false =>
      show (r₁.openWindow id).Owned
      unfold openWindow
      split
      · rename_i t' found
        exact owned_set (t := { t' with timer := true }) first (first id t' found) rfl
      · exact first

theorem owned_forEach (visits : Visits env emits prep visit) (ids : List JSString) (h : r.Owned) :
    (forEach visit ids r).1.Owned := by
  induction ids generalizing r with
  | nil => exact h
  | cons id ids ih =>
    unfold forEach
    cases known : r.tasks.get? id with
    | none => exact ih h
    | some t =>
      have own : (prep t).state.id = id := (visits.own t).trans (h id t known)
      have first : (visit r id t).1.Owned := by
        cases yes : emits t with
        | true =>
          rw [visits.emitting r id t yes]
          exact owned_emit h own
        | false =>
          obtain ⟨tasks, eq, get⟩ := visits.silent r id t yes known
          rw [eq]
          intro id' t' found
          change tasks.get? id' = some t' at found
          rw [get] at found
          split at found
          · rename_i same
            obtain rfl := Option.some.inj found
            exact own.trans same.symm
          · exact h id' t' found
      simp only
      cases round : visit r id t with
      | mk r₁ threw =>
        rw [round] at first
        cases threw with
        | true => exact first
        | false => exact ih first

end ProgressReporter

end LemonModel
