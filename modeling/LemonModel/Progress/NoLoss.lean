import LemonModel.Progress.Reporter

/-!
# What a progress reporter dispatches

`Explicit` is what the calls have told of a task, from the calls alone. A task that is
not dirty has its explicit fields in the last snapshot that was dispatched, and
nothing is dispatched of a task after its end.
-/

namespace LemonModel

open Text

/-! ## What was told of a task -/

structure Explicit where
  started : Bool
  ended : Bool
  status : ProgressStatus
  fields : ProgressFields

namespace Explicit

def none : Explicit := ⟨false, false, .pending, .empty⟩

/-- The end of an open task. -/
def finish (x : Explicit) (status : ProgressStatus) (patch : ProgressFields) : Explicit :=
  { x with ended := true, status, fields := x.fields.assignDefined patch }

/-- A call on a handle of the task, which does nothing after its end. -/
def whileOpen (x : Explicit) (x' : Explicit) : Explicit := if x.started ∧ ¬ x.ended then x' else x

/-- What an event tells of `id`. -/
def after (id : JSString) (x : Explicit) : ReporterEvent → Explicit
  | .start id' initial _ => if id' = id ∧ ¬ x.started then ⟨true, false, .pending, initial⟩ else x
  | .update id' status rest =>
    if id' = id then x.whileOpen { x with
      status := ProgressReporter.nextStatus x.status status
      fields := x.fields.assignDefined rest }
    else x
  | .done id' patch => if id' = id then x.whileOpen (x.finish .done patch) else x
  | .error id' message patch =>
    if id' = id then x.whileOpen ({ x with
      fields := x.fields.put .error (.json (.str message)) }.finish .error patch)
    else x
  | _ => x

end Explicit

/-- What a list of events tells of `id`. -/
def explicit (id : JSString) (es : List (ReporterEvent × Surroundings)) : Explicit :=
  es.foldl (fun x e => x.after id e.1) .none

/-! ## What has to hold of the surroundings -/

def ProgressFields.Printable (fields : ProgressFields) : Prop := ∀ k, fields k ≠ some .unprintable

def ReporterEvent.patch : ReporterEvent → ProgressFields
  | .start _ initial _ => initial
  | .update _ _ rest => rest
  | .done _ patch => patch
  | .error _ _ patch => patch
  | _ => .empty

/-- A status that `update` takes. -/
def ReporterEvent.Typed : ReporterEvent → Prop
  | .update _ status _ => status = some .pending ∨ status = some .running ∨ status = Option.none
  | _ => True

/-- Everything can be printed, and the observer does not throw. -/
structure Quiet (e : ReporterEvent × Surroundings) : Prop where
  typed : e.1.Typed
  patch : e.1.patch.Printable
  measure : ∀ id measure, e.2.measure id = some measure → measure.Printable
  observer : ∀ id why, e.2.observer id why = false

def ProgressStatus.terminal (s : ProgressStatus) : Bool := s = .done ∨ s = .error

/-! ## One emission -/

/-- With `v` as its `metadata` the message `mid` would be too large. -/
def Oversized (type : JSString) (maxPacketBytes : ℚ) (mid : Nat) (s : ProgressState)
    (v : FieldValue) : Prop :=
  ∃ bytes, messageBytes type { s with fields := s.fields.put .metadata v } mid = some bytes ∧
    maxPacketBytes < (bytes : ℚ)

/-- The snapshot in the message `mid` has all that was told, but for `metadata` that is too
large for the message. -/
structure Reflects (type : JSString) (maxPacketBytes : ℚ) (mid : Nat) (s : ProgressState)
    (x : Explicit) : Prop where
  status : s.status = x.status
  fields : ∀ k v, x.fields k = some v → s.fields k = some v ∨
    k = .metadata ∧ s.fields k = Option.none ∧ Oversized type maxPacketBytes mid s v

namespace ProgressReporter

variable {env : Surroundings} {r : ProgressReporter} {id : JSString} {t : ProgressTask}
  {x : Explicit} {s : ProgressState}

theorem isSome_mapM {α β : Type} {f : α → Option β} {as : List α}
    (h : ∀ a ∈ as, (f a).isSome = true) : (as.mapM f).isSome = true := by
  induction as with
  | nil => rfl
  | cons a as ih =>
    obtain ⟨b, hb⟩ := Option.isSome_iff_exists.mp (h a List.mem_cons_self)
    obtain ⟨bs, hbs⟩ := Option.isSome_iff_exists.mp
      (ih fun a ha => h a (List.mem_cons_of_mem _ ha))
    simp [List.mapM_cons, hb, hbs]

theorem printable_messageBytes (h : s.fields.Printable) (type : JSString) (mid : Nat) :
    (messageBytes type s mid).isSome = true := by
  have members : s.fields.members.isSome = true := by
    apply isSome_mapM
    intro p hp
    obtain ⟨k, -, hk⟩ := List.mem_filterMap.mp hp
    obtain ⟨v, hv, rfl⟩ := Option.map_eq_some_iff.mp hk
    cases v with
    | json j => rfl
    | unprintable => exact absurd hv (h k)
  obtain ⟨ms, hms⟩ := Option.isSome_iff_exists.mp members
  simp [messageBytes, ProgressState.json, hms]

theorem printable_assign {a b : ProgressFields} (ha : a.Printable) (hb : b.Printable) :
    (a.assignDefined b).Printable := by
  intro k
  unfold ProgressFields.assignDefined
  cases hk : b k with
  | none => exact ha k
  | some v => exact fun e => hb k (hk.trans e)

theorem printable_merge {a b : ProgressFields} (ha : a.Printable) (hb : b.Printable) :
    (merge a b).Printable := by
  intro k
  unfold merge
  cases hk : a k with
  | some v => exact fun e => ha k (hk.trans e)
  | none =>
    split
    · exact hb k
    · exact fun e => nomatch e

/-- What the message of a snapshot with the explicit fields carries. -/
theorem pack_ok (observer : ∀ why, env.observer id why = false) (printable : s.fields.Printable)
    (told : ∀ k v, x.fields k = some v → s.fields k = some v) (status : s.status = x.status) :
    ∃ data : ProgressState, r.pack env id t s =
        ({ r with
          mid := r.mid + 1
          tasks := r.tasks.set id { t with last := data, mid := r.mid + 1 }
          sent := data :: r.sent }, false) ∧
      data.id = s.id ∧ data.seq = s.seq ∧
        Reflects r.type r.maxPacketBytes (r.mid + 1) data x := by
  have whole : Reflects r.type r.maxPacketBytes (r.mid + 1) s x :=
    ⟨status, fun k v hv => .inl (told k v hv)⟩
  unfold pack
  simp only [dispatch, observer, Bool.false_eq_true, and_false, decide_false, if_false]
  split
  · exact ⟨s, rfl, rfl, rfl, whole⟩
  · obtain ⟨bytes, hb⟩ := Option.isSome_iff_exists.mp
      (printable_messageBytes printable r.type (r.mid + 1))
    simp only [hb]
    split
    · rename_i large
      refine ⟨strip s, rfl, rfl, rfl, status, fun k v hv => ?_⟩
      by_cases hk : k = .metadata
      · subst hk
        refine .inr ⟨rfl, by simp [strip], bytes, ?_, large⟩
        have back : (strip s).fields.put .metadata v = s.fields := by
          funext k
          unfold ProgressFields.put strip
          split
          · rename_i hk
            rw [hk, told _ v hv]
          · rename_i hk
            exact if_neg hk
        rw [back]
        exact hb
      · left
        exact (if_neg hk).trans (told k v hv)
    · exact ⟨s, rfl, rfl, rfl, whole⟩

/-- **An emission.** It dispatches a snapshot with what was told of the task. -/
theorem emit_ok (observer : ∀ why, env.observer id why = false)
    (measured : ∀ measure, env.measure id = some measure → measure.Printable)
    (printable : t.state.fields.Printable) (fields : t.state.fields = x.fields)
    (status : t.state.status = x.status) :
    ∃ data : ProgressState, r.emit env id t =
        ({ r with
          seq := r.seq + 1
          mid := r.mid + 1
          tasks := r.tasks.set id { t with dirty := false, last := data, mid := r.mid + 1 }
          sent := data :: r.sent }, false) ∧
      data.id = t.state.id ∧ data.seq = r.seq + 1 ∧
        Reflects r.type r.maxPacketBytes (r.mid + 1) data x := by
  have told : ∀ k v, x.fields k = some v → t.state.fields k = some v := by
    intro k v hv
    rw [fields]
    exact hv
  have plain := pack_ok (r := { r with seq := r.seq + 1 }) (t := { t with dirty := false })
    (s := { t.state with ts := env.now, seq := r.seq + 1 }) observer printable told status
  unfold emit
  simp only
  split
  · cases hm : env.measure id with
    | none =>
      simp only [observer, Bool.false_eq_true, if_false]
      exact plain
    | some measure =>
      apply pack_ok (r := { r with seq := r.seq + 1 }) (t := { t with dirty := false })
        (s := { t.state with ts := env.now, seq := r.seq + 1, fields := merge t.state.fields measure })
        observer (printable_merge printable (measured measure hm)) _ status
      intro k v hv
      show (t.state.fields k).or _ = some v
      rw [told k v hv]
      rfl
  · exact plain

/-! ## The invariant -/

/-- A task of which `x` was told. -/
structure TaskOk (type : JSString) (maxPacketBytes : ℚ) (sent : List ProgressState)
    (id : JSString) (x : Explicit) (t : ProgressTask) : Prop where
  own : t.state.id = id
  printable : t.state.fields.Printable
  started : x.started = true
  closed : t.closed = x.ended
  ended : x.ended = x.status.terminal
  state : t.closed = false → t.state.fields = x.fields ∧ t.state.status = x.status
  dirty : t.dirty = true → t.closed = false ∧ t.timer = true
  newest : (sent.find? fun s => s.id = id) = some t.last
  clean : t.dirty = false → Reflects type maxPacketBytes t.mid t.last x
  alive : t.closed = false → ∀ s ∈ sent, s.id = id → s.status.terminal = false

/-- What holds of a reporter when `told id` is told of each `id`. -/
structure NoLoss (told : JSString → Explicit) (r : ProgressReporter) : Prop where
  seqs : ∀ s ∈ r.sent, s.seq ≤ r.seq
  rising : r.sent.Pairwise fun later earlier => earlier.seq < later.seq
  last : r.sent.Pairwise fun later earlier =>
    later.id = earlier.id → earlier.status.terminal = false
  task : ∀ id t, r.tasks.get? id = some t →
    TaskOk r.type r.maxPacketBytes r.sent id (told id) t
  absent : ∀ id, r.tasks.get? id = none →
    (told id).started = false ∧ ∀ s ∈ r.sent, s.id ≠ id

variable {told told' : JSString → Explicit}

/-- Nothing changes for a task of another id. -/
theorem TaskOk.sent {type : JSString} {maxPacketBytes : ℚ} {sent : List ProgressState}
    {data : ProgressState} (h : TaskOk type maxPacketBytes sent id x t) (other : data.id ≠ id) :
    TaskOk type maxPacketBytes (data :: sent) id x t := by
  refine { h with newest := ?_, alive := fun isOpen s hs own => ?_ }
  · rw [List.find?_cons_of_neg (by simpa using other)]
    exact h.newest
  · rcases List.mem_cons.mp hs with rfl | hs
    · exact absurd own other
    · exact h.alive isOpen s hs own

/-- A task is put back, and more is told of it. -/
theorem noLoss_put (h : NoLoss told r) (same : ∀ id', id' ≠ id → told' id' = told id')
    (ok : TaskOk r.type r.maxPacketBytes r.sent id (told' id) t) : NoLoss told' (r.put id t) := by
  refine ⟨h.seqs, h.rising, h.last, fun id' t' ht => ?_, fun id' ht => ?_⟩
  · change (r.tasks.set id t).get? id' = some t' at ht
    rw [Dict.get?_set] at ht
    split at ht
    · rename_i own
      obtain rfl := Option.some.inj ht
      rw [own]
      exact ok
    · rename_i other
      rw [same id' other]
      exact h.task id' t' ht
  · change (r.tasks.set id t).get? id' = Option.none at ht
    rw [Dict.get?_set] at ht
    split at ht
    · cases ht
    · rename_i other
      rw [same id' other]
      exact h.absent id' ht

/-- **An emission keeps the invariant.** The task may not have been in order before. -/
theorem noLoss_emit (h : NoLoss told r) (same : ∀ id', id' ≠ id → told' id' = told id')
    (observer : ∀ why, env.observer id why = false)
    (measured : ∀ measure, env.measure id = some measure → measure.Printable)
    (own : t.state.id = id) (printable : t.state.fields.Printable)
    (started : (told' id).started = true) (closed : t.closed = (told' id).ended)
    (ended : (told' id).ended = (told' id).status.terminal)
    (fields : t.state.fields = (told' id).fields) (status : t.state.status = (told' id).status)
    (alive : ∀ s ∈ r.sent, s.id = id → s.status.terminal = false) :
    NoLoss told' (r.emit env id t).1 ∧ (r.emit env id t).2 = false := by
  obtain ⟨data, eq, dataId, dataSeq, reflects⟩ := emit_ok (r := r) observer measured printable
    fields status
  rw [eq]
  refine ⟨⟨fun s hs => ?_, ?_, ?_, fun id' t' ht => ?_, fun id' ht => ?_⟩, rfl⟩
  · rcases List.mem_cons.mp hs with rfl | hs
    · exact dataSeq.le
    · exact Nat.le_succ_of_le (h.seqs s hs)
  · refine List.pairwise_cons.mpr ⟨fun s hs => ?_, h.rising⟩
    have := h.seqs s hs
    omega
  · refine List.pairwise_cons.mpr ⟨fun s hs same => alive s hs ?_, h.last⟩
    rw [← same, dataId, own]
  · change (r.tasks.set id _).get? id' = some t' at ht
    rw [Dict.get?_set] at ht
    split at ht
    · rename_i here
      obtain rfl := Option.some.inj ht
      subst here
      refine ⟨own, printable, started, closed, ended, fun _ => ⟨fields, status⟩,
        fun dirty => (nomatch dirty), ?_, fun _ => reflects, fun isOpen s hs here => ?_⟩
      · exact List.find?_cons_of_pos (by simpa using dataId.trans own)
      · rcases List.mem_cons.mp hs with rfl | hs
        · change t.closed = false at isOpen
          rw [reflects.status, ← ended, ← closed, isOpen]
        · exact alive s hs here
    · rename_i other
      rw [same id' other]
      exact (h.task id' t' ht).sent fun e => other (e.symm.trans (dataId.trans own))
  · change (r.tasks.set id _).get? id' = Option.none at ht
    rw [Dict.get?_set] at ht
    split at ht
    · cases ht
    · rename_i other
      rw [same id' other]
      obtain ⟨unstarted, none⟩ := h.absent id' ht
      refine ⟨unstarted, fun s hs => ?_⟩
      rcases List.mem_cons.mp hs with rfl | hs
      · exact fun e => other (e.symm.trans (dataId.trans own))
      · exact none s hs

/-- An emission of an open task of which nothing new is told. -/
theorem noLoss_emit_open (h : NoLoss told r) (observer : ∀ why, env.observer id why = false)
    (measured : ∀ measure, env.measure id = some measure → measure.Printable)
    (ok : TaskOk r.type r.maxPacketBytes r.sent id (told id) t) (isOpen : t.closed = false)
    (timer : Bool) :
    NoLoss told (r.emit env id { t with timer }).1 ∧ (r.emit env id { t with timer }).2 = false := by
  obtain ⟨fields, status⟩ := ok.state isOpen
  exact noLoss_emit h (fun _ _ => rfl) observer measured ok.own ok.printable ok.started ok.closed
    ok.ended fields status (ok.alive isOpen)

theorem noLoss_openWindow (h : NoLoss told r) : NoLoss told (r.openWindow id) := by
  unfold openWindow
  split
  · rename_i t ht
    have ok := h.task id t ht
    exact noLoss_put h (fun _ _ => rfl)
      { ok with dirty := fun dirty => ⟨(ok.dirty dirty).1, rfl⟩ }
  · exact h

theorem noLoss_emitOpening
    (h : NoLoss told (r.emit env id t).1 ∧ (r.emit env id t).2 = false) :
    NoLoss told (r.emitOpening env id t).1 ∧ (r.emitOpening env id t).2 = false := by
  unfold emitOpening
  obtain ⟨kept, quiet⟩ := h
  generalize r.emit env id t = p at kept quiet
  obtain ⟨r', threw⟩ := p
  obtain rfl : threw = false := quiet
  exact ⟨noLoss_openWindow kept, rfl⟩

/-- Every task is visited. -/
theorem noLoss_forEach {visit : ProgressReporter → JSString → ProgressTask → ProgressReporter × Bool}
    (step : ∀ r id t, NoLoss told r → r.tasks.get? id = some t →
      NoLoss told (visit r id t).1 ∧ (visit r id t).2 = false)
    (ids : List JSString) (h : NoLoss told r) :
    NoLoss told (forEach visit ids r).1 ∧ (forEach visit ids r).2 = false := by
  induction ids generalizing r with
  | nil => exact ⟨h, rfl⟩
  | cons id ids ih =>
    unfold forEach
    cases ht : r.tasks.get? id with
    | none => exact ih h
    | some t =>
      obtain ⟨kept, quiet⟩ := step r id t h ht
      simp only
      generalize visit r id t = p at kept quiet
      obtain ⟨r', threw⟩ := p
      obtain rfl : threw = false := quiet
      exact ih kept

theorem noLoss_beat (quiet : ∀ id why, env.observer id why = false)
    (measured : ∀ id measure, env.measure id = some measure → measure.Printable)
    (h : NoLoss told r) (ht : r.tasks.get? id = some t) :
    NoLoss told (beat env r id t).1 ∧ (beat env r id t).2 = false := by
  unfold beat
  split
  · rename_i running
    exact noLoss_emit_open h (quiet id) (measured id) (h.task id t ht) running.1 t.timer
  · exact ⟨h, rfl⟩

theorem noLoss_flush (quiet : ∀ id why, env.observer id why = false)
    (measured : ∀ id measure, env.measure id = some measure → measure.Printable)
    (h : NoLoss told r) (ht : r.tasks.get? id = some t) :
    NoLoss told (flush env r id t).1 ∧ (flush env r id t).2 = false := by
  have ok := h.task id t ht
  simp only [flush]
  split
  · rename_i waits
    exact noLoss_emit_open h (quiet id) (measured id) ok waits.2 false
  · rename_i settled
    refine ⟨noLoss_put h (fun _ _ => rfl) { ok with dirty := fun dirty => ?_ }, rfl⟩
    exact absurd ⟨dirty, (ok.dirty dirty).1⟩ settled

theorem noLoss_fireTimer (quiet : ∀ why, env.observer id why = false)
    (measured : ∀ measure, env.measure id = some measure → measure.Printable)
    (h : NoLoss told r) (ht : r.tasks.get? id = some t) :
    NoLoss told (r.fireTimer env id t).1 ∧ (r.fireTimer env id t).2 = false := by
  have ok := h.task id t ht
  simp only [fireTimer]
  split
  · rename_i nothing
    refine ⟨noLoss_put h (fun _ _ => rfl) { ok with dirty := fun dirty => ?_ }, rfl⟩
    rcases nothing with clean | closed
    · exact absurd (dirty.symm.trans clean) (by decide)
    · exact absurd (closed.symm.trans (ok.dirty dirty).1) (by decide)
  · rename_i due
    rw [not_or, Bool.not_eq_true] at due
    exact noLoss_emitOpening (noLoss_emit_open h quiet measured ok due.2 false)

/-- The end of an open task. -/
theorem noLoss_finish {status : ProgressStatus} {patch : ProgressFields} (h : NoLoss told r)
    (same : ∀ id', id' ≠ id → told' id' = told id')
    (quiet : ∀ why, env.observer id why = false)
    (measured : ∀ measure, env.measure id = some measure → measure.Printable)
    (own : t.state.id = id) (printable : t.state.fields.Printable) (patched : patch.Printable)
    (isOpen : t.closed = false) (terminal : status.terminal = true) (started : x.started = true)
    (fields : t.state.fields = x.fields) (now : told' id = x.finish status patch)
    (alive : ∀ s ∈ r.sent, s.id = id → s.status.terminal = false) :
    NoLoss told' (r.finish env id t status patch).1 ∧ (r.finish env id t status patch).2 = false := by
  unfold finish
  rw [if_neg (by simp [isOpen])]
  refine noLoss_emit h same quiet measured own ?_ ?_ ?_ ?_ ?_ ?_ alive
  · exact printable_assign printable patched
  · rw [now]
    exact started
  · rw [now]
    rfl
  · rw [now]
    exact terminal.symm
  · rw [now]
    exact congrArg (ProgressFields.assignDefined · patch) fields
  · rw [now]
    rfl

/-! ## Every event -/

theorem noLoss_start {initial : ProgressFields} {gauge : Bool} (h : NoLoss told r)
    (quiet : ∀ why, env.observer id why = false)
    (measured : ∀ measure, env.measure id = some measure → measure.Printable)
    (printable : initial.Printable) :
    NoLoss (fun id' => (told id').after id' (.start id initial gauge))
      (r.start env id initial gauge).1 ∧
      (r.start env id initial gauge).2 = false := by
  have same : ∀ id', id' ≠ id → (told id').after id' (.start id initial gauge) = told id' :=
    fun id' other => if_neg fun e => other e.1.symm
  unfold start
  split
  · rename_i t ht
    have started := (h.task id t ht).started
    have told_eq : (fun id' => (told id').after id' (.start id initial gauge)) = told := by
      funext id'
      apply if_neg
      rintro ⟨rfl, unstarted⟩
      exact unstarted started
    rw [told_eq]
    exact ⟨h, rfl⟩
  · rename_i absent
    obtain ⟨unstarted, none⟩ := h.absent id absent
    have now : (told id).after id (.start id initial gauge) = ⟨true, false, .pending, initial⟩ :=
      if_pos ⟨rfl, by simp [unstarted]⟩
    have fields : ProgressFields.empty.assignDefined initial = initial := by
      funext k
      exact Option.or_none
    refine noLoss_emit h same quiet measured rfl ?_ ?_ ?_ ?_ ?_ ?_ ?_
    · rw [fields]
      exact printable
    · rw [now]
    · rw [now]
    · rw [now]
      rfl
    · rw [now]
      exact fields
    · rw [now]
    · exact fun s hs own => absurd own (none s hs)

theorem nextStatus_open {now : ProgressStatus} {status : Option ProgressStatus}
    (isOpen : now.terminal = false)
    (typed : status = some .pending ∨ status = some .running ∨ status = Option.none) :
    (nextStatus now status).terminal = false := by
  rcases typed with rfl | rfl | rfl
  · cases now <;> rfl
  · cases now <;> rfl
  · exact isOpen

theorem noLoss_update {status : Option ProgressStatus} {rest : ProgressFields} (h : NoLoss told r)
    (quiet : ∀ why, env.observer id why = false)
    (measured : ∀ measure, env.measure id = some measure → measure.Printable)
    (typed : status = some .pending ∨ status = some .running ∨ status = Option.none)
    (printable : rest.Printable) (ht : r.tasks.get? id = some t) :
    NoLoss (fun id' => (told id').after id' (.update id status rest))
        (r.update env id t status rest).1 ∧
      (r.update env id t status rest).2 = false := by
  have ok := h.task id t ht
  have same : ∀ id', id' ≠ id → (told id').after id' (.update id status rest) = told id' :=
    fun id' other => if_neg (Ne.symm other)
  simp only [update]
  split
  · rename_i closed
    have told_eq : (fun id' => (told id').after id' (.update id status rest)) = told := by
      funext id'
      by_cases own : id' = id
      · subst own
        simp only [Explicit.after, if_true]
        exact if_neg fun e => e.2 (ok.closed.symm.trans closed)
      · exact same id' own
    rw [told_eq]
    exact ⟨h, rfl⟩
  · rename_i isOpen
    rw [Bool.not_eq_true] at isOpen
    obtain ⟨fields, statusEq⟩ := ok.state isOpen
    have running := ok.ended.symm.trans (ok.closed.symm.trans isOpen)
    have now : (told id).after id (.update id status rest) =
        { told id with
          status := nextStatus (told id).status status
          fields := (told id).fields.assignDefined rest } := by
      simp only [Explicit.after, if_true]
      exact if_pos ⟨ok.started, by simp [← ok.closed, isOpen]⟩
    have ended : ({ told id with
        status := nextStatus (told id).status status
        fields := (told id).fields.assignDefined rest } : Explicit).ended =
          (nextStatus (told id).status status).terminal := by
      rw [nextStatus_open running typed]
      exact ok.closed.symm.trans isOpen
    have emits := noLoss_emit (t := { t with
        state := { t.state with
          status := nextStatus t.state.status status
          fields := t.state.fields.assignDefined rest } }) h same quiet measured ok.own
      (printable_assign ok.printable printable) (by rw [now]; exact ok.started)
      (by rw [now]; exact ok.closed) (by rw [now]; exact ended)
      (by rw [now]; exact congrArg (ProgressFields.assignDefined · rest) fields)
      (by rw [now]; exact congrArg (nextStatus · status) statusEq) (ok.alive isOpen)
    split
    · exact emits
    · split
      · rename_i timer
        refine ⟨noLoss_put h same ?_, rfl⟩
        rw [now]
        refine ⟨ok.own, printable_assign ok.printable printable, ok.started, ok.closed, ended,
          fun _ => ⟨?_, ?_⟩, fun _ => ⟨isOpen, timer⟩, ok.newest, fun dirty => (nomatch dirty),
            ok.alive⟩
        · exact congrArg (ProgressFields.assignDefined · rest) fields
        · exact congrArg (nextStatus · status) statusEq
      · exact noLoss_emitOpening emits

/-- Nothing is told of a task that ended. -/
theorem after_ended (hx : x.ended = true) {e : ReporterEvent} (started : x.started = true) :
    x.after id e = x := by
  cases e <;> simp [Explicit.after, Explicit.whileOpen, hx, started]

theorem noLoss_done {patch : ProgressFields} (h : NoLoss told r)
    (quiet : ∀ why, env.observer id why = false)
    (measured : ∀ measure, env.measure id = some measure → measure.Printable)
    (printable : patch.Printable) (ht : r.tasks.get? id = some t) :
    NoLoss (fun id' => (told id').after id' (.done id patch)) (r.finish env id t .done patch).1 ∧
      (r.finish env id t .done patch).2 = false := by
  have ok := h.task id t ht
  have same : ∀ id', id' ≠ id → (told id').after id' (.done id patch) = told id' :=
    fun id' other => if_neg (Ne.symm other)
  cases closed : t.closed with
  | true =>
    unfold finish
    rw [if_pos closed]
    refine ⟨noLoss_put h same ?_, rfl⟩
    rw [after_ended (ok.closed.symm.trans closed) ok.started]
    exact ok
  | false =>
    refine noLoss_finish (x := told id) h same quiet measured ok.own ok.printable printable closed
      rfl ok.started (ok.state closed).1 ?_ (ok.alive closed)
    simp only [Explicit.after, if_true]
    exact if_pos ⟨ok.started, by simp [← ok.closed, closed]⟩

theorem noLoss_error {message : JSString} {patch : ProgressFields} (h : NoLoss told r)
    (quiet : ∀ why, env.observer id why = false)
    (measured : ∀ measure, env.measure id = some measure → measure.Printable)
    (printable : patch.Printable) (ht : r.tasks.get? id = some t) :
    NoLoss (fun id' => (told id').after id' (.error id message patch))
        (r.finish env id { t with
          state := { t.state with fields := t.state.fields.put .error (.json (.str message)) } }
          .error patch).1 ∧
      (r.finish env id { t with
          state := { t.state with fields := t.state.fields.put .error (.json (.str message)) } }
          .error patch).2 = false := by
  have ok := h.task id t ht
  have same : ∀ id', id' ≠ id → (told id').after id' (.error id message patch) = told id' :=
    fun id' other => if_neg (Ne.symm other)
  have put : (t.state.fields.put .error (.json (.str message))).Printable := by
    intro k
    unfold ProgressFields.put
    split
    · exact fun e => nomatch e
    · exact ok.printable k
  by_cases closed : t.closed = true
  · unfold finish
    rw [if_pos closed]
    refine ⟨noLoss_put h same ?_, rfl⟩
    rw [after_ended (ok.closed.symm.trans closed) ok.started]
    exact { ok with
      printable := put
      state := fun isOpen => absurd (closed.symm.trans isOpen) (by decide) }
  · rw [Bool.not_eq_true] at closed
    refine noLoss_finish (x := { told id with
        fields := (told id).fields.put .error (.json (.str message)) }) h same quiet measured ok.own
      put printable closed rfl ok.started ?_ ?_ (ok.alive closed)
    · exact congrArg (ProgressFields.put · .error (.json (.str message))) (ok.state closed).1
    · simp only [Explicit.after, if_true]
      exact if_pos ⟨ok.started, by simp [← ok.closed, closed]⟩

/-- **The step lemma.** No exception comes out either. -/
theorem noLoss_handle {e : ReporterEvent} {p : ProgressReporter × Bool} (h : NoLoss told r)
    (quiet : Quiet (e, env)) (hr : r.handle env e = some p) :
    NoLoss (fun id => (told id).after id e) p.1 ∧ p.2 = false := by
  obtain ⟨typed, printable, measured, observer⟩ := quiet
  cases e with
  | start id initial gauge =>
    obtain rfl := Option.some.inj hr
    exact noLoss_start h (observer id) (measured id) printable
  | update id status rest =>
    obtain ⟨t, ht, rfl⟩ := Option.map_eq_some_iff.mp hr
    exact noLoss_update h (observer id) (measured id) typed printable ht
  | done id patch =>
    obtain ⟨t, ht, rfl⟩ := Option.map_eq_some_iff.mp hr
    exact noLoss_done h (observer id) (measured id) printable ht
  | error id message patch =>
    obtain ⟨t, ht, rfl⟩ := Option.map_eq_some_iff.mp hr
    exact noLoss_error h (observer id) (measured id) printable ht
  | timer id =>
    obtain ⟨t, ht, -, rfl⟩ := handle_timer hr
    exact noLoss_fireTimer (observer id) (measured id) h ht
  | heartbeat =>
    obtain rfl := handle_heartbeat hr
    exact noLoss_forEach (fun _ _ _ h ht => noLoss_beat observer measured h ht) _ h
  | close =>
    obtain rfl := Option.some.inj hr
    exact noLoss_forEach (fun _ _ _ h ht => noLoss_flush observer measured h ht) _
      ⟨h.seqs, h.rising, h.last, h.task, h.absent⟩

theorem noLoss_create (type : Option JSString) (throttleMs heartbeatMs maxPacketBytes : Option ℚ) :
    NoLoss (fun _ => .none) (create type throttleMs heartbeatMs maxPacketBytes) := by
  refine ⟨fun _ h => (nomatch h), .nil, .nil, fun id t ht => ?_,
    fun id _ => ⟨rfl, fun _ h => (nomatch h)⟩⟩
  cases ht

/-- **The run lemma.** -/
theorem noLoss_run {es : List (ReporterEvent × Surroundings)} {r' : ProgressReporter}
    (run : Run step (fun _ e => Quiet e) r es r') (h : NoLoss told r) :
    NoLoss (fun id => es.foldl (fun x e => x.after id e.1) (told id)) r' := by
  induction run generalizing told with
  | nil => exact h
  | cons quiet hstep _ ih =>
    obtain ⟨p, hp, rfl⟩ := Option.map_eq_some_iff.mp hstep
    exact ih (noLoss_handle h quiet hp).1

/-- **Nothing is lost, and the end is final.** In a run in which everything that is told
can be printed and no observer throws: the dispatched `seq` rise, and a dirty task is open
with its timer set. The last snapshot that was dispatched of a task that is not dirty has
the status and each explicit field that was told of it while it was open, but for
`metadata` that made the message too large. After the snapshot that ends a task there is
none of it. -/
theorem reporter_loses_nothing {type : Option JSString}
    {throttleMs heartbeatMs maxPacketBytes : Option ℚ}
    {es : List (ReporterEvent × Surroundings)}
    (run : Run step (fun _ e => Quiet e) (create type throttleMs heartbeatMs maxPacketBytes) es r) :
    (r.sent.Pairwise fun later earlier => earlier.seq < later.seq) ∧
      (∀ id t, r.tasks.get? id = some t →
        (t.dirty = true → t.closed = false ∧ t.timer = true) ∧
        (r.sent.find? fun s => s.id = id) = some t.last ∧
        (t.dirty = false → Reflects r.type r.maxPacketBytes t.mid t.last (explicit id es))) ∧
      r.sent.Pairwise fun later earlier =>
        later.id = earlier.id → earlier.status.terminal = false := by
  have h := noLoss_run run (noLoss_create type throttleMs heartbeatMs maxPacketBytes)
  refine ⟨h.rising, fun id t ht => ?_, h.last⟩
  have ok := h.task id t ht
  exact ⟨ok.dirty, ok.newest, ok.clean⟩

/-! A task in a throttle window, and one with `meta` that cannot be printed. -/

def calm : Surroundings := ⟨0, fun _ => Option.none, fun _ => .returns, fun _ _ => false⟩

def percent (n : Nat) : ProgressFields := ProgressFields.empty.put .percent (.json (.ofNat n))

theorem quiet_calm {e : ReporterEvent} (typed : e.Typed) (printable : e.patch.Printable) :
    Quiet (e, calm) :=
  ⟨typed, printable, fun _ _ h => (nomatch h), fun _ _ => rfl⟩

theorem printable_percent (n : Nat) : (percent n).Printable := by
  intro k
  cases k <;> simp [percent, ProgressFields.put, ProgressFields.empty]

def throttled : List (ReporterEvent × Surroundings) :=
  [.start (lit "t") .empty false, .update (lit "t") (some .running) (percent 1),
    .update (lit "t") none (percent 2), .timer (lit "t"), .update (lit "t") none (percent 3),
    .close].map (·, calm)

theorem reporter_loses_nothing_throttled :
    ∃ r, exec step (create none (some 100) none none) throttled = some r ∧
      r.sent.map ProgressState.seq = [4, 3, 2, 1] ∧
      (r.sent.Pairwise fun later earlier => earlier.seq < later.seq) ∧
      ∀ t, r.tasks.get? (lit "t") = some t → t.dirty = false →
        Reflects r.type r.maxPacketBytes t.mid t.last (explicit (lit "t") throttled) := by
  have done : (exec step (create none (some 100) none none) throttled).isSome = true := by
    decide +kernel
  obtain ⟨r, hexec⟩ := Option.isSome_iff_exists.mp done
  have run : Run step (fun _ e => Quiet e) (create none (some 100) none none) throttled r := by
    apply Run.of_events _ hexec
    intro e he _
    have empty : ProgressFields.empty.Printable := fun _ h => nomatch h
    simp only [throttled, List.map_cons, List.map_nil, List.mem_cons, List.not_mem_nil, or_false]
      at he
    rcases he with rfl | rfl | rfl | rfl | rfl | rfl
    · exact quiet_calm trivial empty
    · exact quiet_calm (.inr (.inl rfl)) (printable_percent 1)
    · exact quiet_calm (.inr (.inr rfl)) (printable_percent 2)
    · exact quiet_calm trivial empty
    · exact quiet_calm (.inr (.inr rfl)) (printable_percent 3)
    · exact quiet_calm trivial empty
  obtain ⟨rising, tasks, -⟩ := reporter_loses_nothing run
  refine ⟨r, hexec, ?_, rising, fun t ht clean => (tasks _ t ht).2.2 clean⟩
  exact run.read (a := [4, 3, 2, 1]) (f := fun r => r.sent.map ProgressState.seq) (by decide +kernel)

/-- With `meta` that `JSON.stringify` throws on, what is told is not dispatched, and the
task is not dirty. -/
theorem unprintable_update_is_lost :
    (exec step (create none none none none)
        [(.start (lit "t") .empty false, calm),
          (.update (lit "t") none ((percent 50).put .metadata .unprintable), calm)]).map
      (fun r => ((r.tasks.get? (lit "t")).map fun t => (t.dirty, t.last.fields .percent),
        r.sent.map fun s => (s.seq, s.fields .percent))) =
      some (some (false, Option.none), [(1, Option.none)]) ∧
    (explicit (lit "t") [(.start (lit "t") .empty false, calm),
        (.update (lit "t") Option.none ((percent 50).put .metadata .unprintable), calm)]).fields
      .percent = some (.json (.ofNat 50)) := by
  decide +kernel

end ProgressReporter

end LemonModel
