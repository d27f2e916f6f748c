import LemonModel.Base.Dict
import LemonModel.Base.Run
import LemonModel.Transport.Packet

/-!
# Progress consumer

`createProgressConsumer`: the latest snapshot of each task, as many tasks as it may
hold, and the changes its handlers are told of.
-/

namespace LemonModel

open Text

/-- What a progress message carries; `state` is the whole of it. -/
structure ProgressSnapshot where
  id : JSString
  seq : ℚ
  state : Json
  deriving DecidableEq

/-- `done` or `error`. -/
def ProgressSnapshot.terminal (s : ProgressSnapshot) : Bool :=
  strField s.state (lit "status") = some (lit "done") ∨
    strField s.state (lit "status") = some (lit "error")

structure ProgressChangeEvent where
  state : ProgressSnapshot
  created : Bool
  deriving DecidableEq

/-- `changes` and `heard` are a record: the changes that were applied, and what each
handler was called with, the newest first. -/
structure ProgressConsumer where
  typePrefix : JSString
  maxTasks : ℚ
  store : Dict JSString ProgressSnapshot
  handlers : List Nat
  closed : Bool
  changes : List ProgressChangeEvent
  heard : List (Nat × ProgressChangeEvent)

namespace ProgressConsumer

/-- `createProgressConsumer`, with the options it was given. -/
def create (typePrefix : Option JSString) (maxTasks : Option ℚ) : ProgressConsumer where
  typePrefix := typePrefix.getD (lit "progress:")
  maxTasks := max 1 (maxTasks.getD 100)
  store := .empty
  handlers := []
  closed := false
  changes := []
  heard := []

/-! ## Reading a message -/

/-- `"type":"<prefix>`. -/
def rawKey (typePrefix : JSString) : JSString := lit "\"type\":\"" ++ typePrefix

/-- The snapshot a raw string brings, if it passes both filters. -/
def readState (typePrefix raw : JSString) : Option ProgressSnapshot := do
  guard (rawKey typePrefix <:+: raw)
  let message ← parse raw
  let type ← strField message (lit "type")
  guard (typePrefix.isPrefixOf type)
  let state ← message.prop? (lit "data")
  let id ← strField state (lit "id")
  match state.prop? (lit "seq") with
  | some (.num seq) => some ⟨id, seq.value, state⟩
  | _ => none

/-! ## The store -/

/-- Who has to go: the oldest task that ended, or else the oldest. -/
def evictId (store : Dict JSString ProgressSnapshot) (keepId : JSString) : Option JSString :=
  ((store.entries.find? fun e => e.1 ≠ keepId ∧ e.2.terminal).or
    (store.entries.find? fun e => e.1 ≠ keepId)).map Prod.fst

def evict (maxTasks : ℚ) (store : Dict JSString ProgressSnapshot) (keepId : JSString) :
    Dict JSString ProgressSnapshot :=
  if (store.size : ℚ) ≤ maxTasks then store
  else
    match evictId store keepId with
    | some id => store.delete id
    | none => store

variable (c : ProgressConsumer)

/-- Every handler is called; what one throws is caught. -/
def notify (event : ProgressChangeEvent) : ProgressConsumer :=
  { c with
    changes := event :: c.changes
    heard := (c.handlers.map fun handler => (handler, event)).reverse ++ c.heard }

/-- A snapshot comes. -/
def receive (s : ProgressSnapshot) : ProgressConsumer :=
  match c.store.get? s.id with
  | some existing =>
    if s.seq ≤ existing.seq then c
    else { c with store := c.store.set s.id s }.notify ⟨s, false⟩
  | none => { c with store := evict c.maxTasks (c.store.set s.id s) s.id }.notify ⟨s, true⟩

def list : List ProgressSnapshot := c.store.entries.map Prod.snd

end ProgressConsumer

/-- What can happen to a consumer. -/
inductive ConsumerEvent where
  | message (raw : JSString)
  | onChange (handler : Nat)
  | unsubscribe (handler : Nat)
  | close

namespace ProgressConsumer

variable (c : ProgressConsumer)

/-- The snapshot an event brings to the store. -/
def arrival : ConsumerEvent → Option ProgressSnapshot
  | .message raw => if c.closed then none else readState c.typePrefix raw
  | _ => none

def step : ConsumerEvent → Option ProgressConsumer
  | .message raw =>
    some (match c.arrival (.message raw) with
      | some s => c.receive s
      | none => c)
  | .onChange handler =>
    if handler ∈ c.handlers then some c
    else some { c with handlers := c.handlers ++ [handler] }
  | .unsubscribe handler => some { c with handlers := c.handlers.filter (· ≠ handler) }
  | .close => some { c with closed := true, handlers := [] }

end ProgressConsumer

/-! ## The limit -/

namespace ProgressConsumer

variable {c c' : ProgressConsumer} {s : ProgressSnapshot} {e : ConsumerEvent}
  {store : Dict JSString ProgressSnapshot} {maxTasks : ℚ} {id keepId : JSString}

theorem evictId_mem (h : evictId store keepId = some id) : id ∈ store.keys ∧ id ≠ keepId := by
  obtain ⟨entry, found, rfl⟩ := Option.map_eq_some_iff.mp h
  rcases Option.or_eq_some_iff.mp found with first | ⟨-, second⟩
  · have other := List.find?_some first
    simp only [decide_eq_true_eq] at other
    exact ⟨List.mem_map_of_mem (List.mem_of_find?_eq_some first), other.1⟩
  · have other := List.find?_some second
    simp only [decide_eq_true_eq] at other
    exact ⟨List.mem_map_of_mem (List.mem_of_find?_eq_some second), other⟩

theorem evictId_none (h : evictId store keepId = none) : ∀ k ∈ store.keys, k = keepId := by
  have none := (Option.or_eq_none_iff.mp (Option.map_eq_none_iff.mp h)).2
  intro k hk
  obtain ⟨entry, mem, rfl⟩ := List.mem_map.mp hk
  simpa using List.find?_eq_none.mp none entry mem

theorem of_evict {v : ProgressSnapshot} (h : (evict maxTasks store keepId).get? id = some v) :
    store.get? id = some v := by
  unfold evict at h
  split at h
  · exact h
  · split at h
    · rw [Dict.get?_delete] at h
      split at h
      · cases h
      · exact h
    · exact h

theorem keep_evict (h : store.get? keepId = some s) :
    (evict maxTasks store keepId).get? keepId = some s := by
  unfold evict
  split
  · exact h
  · split
    · rename_i gone victim
      rw [Dict.get?_delete_ne _ (evictId_mem victim).2.symm]
      exact h
    · exact h

/-- What is set in a store within the limit is within the limit after the eviction. -/
theorem size_evict (room : 1 ≤ maxTasks) (h : (store.size : ℚ) ≤ maxTasks) (id : JSString)
    (s : ProgressSnapshot) : ((evict maxTasks (store.set id s) id).size : ℚ) ≤ maxTasks := by
  unfold evict
  split
  · assumption
  · split
    · rename_i gone victim
      have less := Dict.size_delete_lt (evictId_mem victim).1
      have grown := Dict.size_set_le store id s
      have le : ((store.set id s).delete gone).size ≤ store.size := by omega
      exact le_trans (by exact_mod_cast le) h
    · rename_i nobody
      have one := Dict.size_le_one id (evictId_none nobody)
      exact le_trans (by exact_mod_cast one) room

theorem size_set_present {v : ProgressSnapshot} (h : store.get? id = some v)
    (s : ProgressSnapshot) : (store.set id s).size = store.size := by
  rw [Dict.size, Dict.entries_set_present (Dict.mem_keys.mpr ⟨v, h⟩), List.length_map, Dict.size]

/-- The store is within the limit `n`. -/
def Within (c : ProgressConsumer) (n : ℚ) : Prop := c.maxTasks = n ∧ (c.store.size : ℚ) ≤ n

variable {n : ℚ}

theorem within_receive (room : 1 ≤ n) (h : c.Within n) (s : ProgressSnapshot) :
    (c.receive s).Within n := by
  obtain ⟨rfl, size⟩ := h
  unfold receive
  split
  · rename_i existing stored
    split
    · exact ⟨rfl, size⟩
    · refine ⟨rfl, ?_⟩
      show ((c.store.set s.id s).size : ℚ) ≤ c.maxTasks
      rw [size_set_present stored]
      exact size
  · exact ⟨rfl, size_evict room size s.id s⟩

theorem within_step (room : 1 ≤ n) (h : c.Within n) (hstep : c.step e = some c') :
    c'.Within n := by
  cases e with
  | message raw =>
    obtain rfl := Option.some.inj hstep
    cases c.arrival (.message raw) with
    | none => exact h
    | some s => exact within_receive room h s
  | onChange handler =>
    simp only [step] at hstep
    split at hstep
    · obtain rfl := Option.some.inj hstep
      exact h
    · obtain rfl := Option.some.inj hstep
      exact h
  | unsubscribe handler | close =>
    obtain rfl := Option.some.inj hstep
    exact h

/-! ## No change goes back -/

/-- A later change of the same task is newer, and does not create it. -/
def Follows (later earlier : ProgressChangeEvent) : Prop :=
  later.state.id = earlier.state.id →
    earlier.state.seq < later.state.seq ∧ later.created = false

/-- What a handler was told, the newest first. -/
def told (c : ProgressConsumer) (handler : Nat) : List ProgressChangeEvent :=
  (c.heard.filter fun h => h.1 = handler).map Prod.snd

/-- No snapshot comes of a task that was evicted. -/
def Retained (c : ProgressConsumer) (e : ConsumerEvent) : Prop :=
  ∀ s ∈ c.arrival e, (∃ change ∈ c.changes, change.state.id = s.id) → c.store.has s.id = true

instance (c : ProgressConsumer) (e : ConsumerEvent) : Decidable (c.Retained e) := by
  unfold Retained
  infer_instance

structure Forward (c : ProgressConsumer) : Prop where
  newest : ∀ id v, c.store.get? id = some v →
    ∃ created, (c.changes.find? fun change => change.state.id = id) = some ⟨v, created⟩
  ordered : c.changes.Pairwise Follows
  handlers : c.handlers.Nodup
  heard : ∀ handler, (c.told handler).Sublist c.changes

theorem newest_max {changes : List ProgressChangeEvent} {f : ProgressChangeEvent}
    (ordered : changes.Pairwise Follows)
    (found : (changes.find? fun change => change.state.id = id) = some f) :
    ∀ change ∈ changes, change.state.id = id → change.state.seq ≤ f.state.seq := by
  induction changes with
  | nil => exact fun _ h => nomatch h
  | cons newer rest ih =>
    obtain ⟨first, ordered⟩ := List.pairwise_cons.mp ordered
    intro change mem own
    by_cases here : newer.state.id = id
    · rw [List.find?_cons_of_pos (by simpa using here)] at found
      obtain rfl := Option.some.inj found
      rcases List.mem_cons.mp mem with rfl | mem
      · exact le_refl _
      · exact (first change mem (here.trans own.symm)).1.le
    · rw [List.find?_cons_of_neg (by simpa using here)] at found
      rcases List.mem_cons.mp mem with rfl | mem
      · exact absurd own here
      · exact ih ordered found change mem own

theorem told_notify (nodup : c.handlers.Nodup) (event : ProgressChangeEvent) (handler : Nat) :
    ((c.notify event).told handler).Sublist (event :: c.told handler) := by
  have calls : (c.notify event).told handler =
      List.replicate (c.handlers.count handler) event ++ c.told handler := by
    unfold told notify
    rw [List.filter_append, List.map_append, List.filter_reverse, List.filter_map,
      List.map_reverse, List.map_map]
    congr 1
    change ((c.handlers.filter fun h => h = handler).map fun _ => event).reverse = _
    rw [List.map_const', List.reverse_replicate, List.count_eq_length_filter]
    rfl
  rw [calls]
  show List.Sublist _ ([event] ++ c.told handler)
  apply List.Sublist.append_right
  exact (List.replicate_sublist_replicate event).mpr (List.nodup_iff_count_le_one.mp nodup handler)

/-- A change that follows all before it. -/
theorem forward_notify {event : ProgressChangeEvent} {store : Dict JSString ProgressSnapshot}
    (h : c.Forward) (follows : ∀ change ∈ c.changes, Follows event change)
    (stored : store.get? event.state.id = some event.state)
    (others : ∀ id v, id ≠ event.state.id → store.get? id = some v → c.store.get? id = some v) :
    ({ c with store := store }.notify event).Forward := by
  refine ⟨fun id v hv => ?_, List.pairwise_cons.mpr ⟨follows, h.ordered⟩, h.handlers,
    fun handler => ?_⟩
  · change store.get? id = some v at hv
    show ∃ created, ((event :: c.changes).find? fun change => change.state.id = id) = _
    by_cases own : event.state.id = id
    · rw [List.find?_cons_of_pos (by simpa using own)]
      rw [← own, stored] at hv
      obtain rfl := Option.some.inj hv
      exact ⟨event.created, rfl⟩
    · rw [List.find?_cons_of_neg (by simpa using own)]
      exact h.newest id v (others id v (Ne.symm own) hv)
  · exact (told_notify h.handlers event handler).trans ((h.heard handler).cons_cons event)

theorem forward_receive (h : c.Forward)
    (retained : (∃ change ∈ c.changes, change.state.id = s.id) → c.store.has s.id = true) :
    (c.receive s).Forward := by
  unfold receive
  split
  · rename_i existing stored
    split
    · exact h
    · rename_i newer
      obtain ⟨created, found⟩ := h.newest _ _ stored
      refine forward_notify h (fun change mem own => ⟨?_, rfl⟩) (Dict.get?_set_self ..) ?_
      · exact lt_of_le_of_lt (newest_max h.ordered found change mem own.symm) (not_le.mp newer)
      · intro id v ne hv
        rwa [Dict.get?_set_ne _ _ ne] at hv
  · rename_i unknown
    refine forward_notify h (fun change mem own => ?_) (keep_evict (Dict.get?_set_self ..)) ?_
    · have known := retained ⟨change, mem, own.symm⟩
      rw [Dict.has, unknown] at known
      cases known
    · intro id v ne hv
      have hv := of_evict hv
      rwa [Dict.get?_set_ne _ _ ne] at hv

theorem forward_step (h : c.Forward) (retained : c.Retained e) (hstep : c.step e = some c') :
    c'.Forward := by
  cases e with
  | message raw =>
    obtain rfl := Option.some.inj hstep
    unfold Retained at retained
    cases arrived : c.arrival (.message raw) with
    | none => exact h
    | some s => exact forward_receive h (retained s arrived)
  | onChange handler =>
    simp only [step] at hstep
    split at hstep
    · obtain rfl := Option.some.inj hstep
      exact h
    · rename_i new
      obtain rfl := Option.some.inj hstep
      refine ⟨h.newest, h.ordered, List.nodup_append.mpr ⟨h.handlers, List.nodup_singleton _, ?_⟩,
        h.heard⟩
      rintro a ha b hb rfl
      exact new (List.mem_singleton.mp hb ▸ ha)
  | unsubscribe handler =>
    obtain rfl := Option.some.inj hstep
    exact ⟨h.newest, h.ordered, h.handlers.filter _, h.heard⟩
  | close =>
    obtain rfl := Option.some.inj hstep
    exact ⟨h.newest, h.ordered, .nil, h.heard⟩

theorem forward_create (typePrefix : Option JSString) (maxTasks : Option ℚ) :
    (create typePrefix maxTasks).Forward := by
  refine ⟨fun id v hv => ?_, .nil, .nil, fun handler => .slnil⟩
  cases hv

theorem within_create (typePrefix : Option JSString) (maxTasks : Option ℚ) :
    (create typePrefix maxTasks).Within (max 1 (maxTasks.getD 100)) := by
  refine ⟨rfl, le_trans ?_ (le_max_left _ _)⟩
  simp [create, Dict.size]

/-- No change of a task that ended is followed by one of the task running. -/
def Ended (later earlier : ProgressChangeEvent) : Prop :=
  later.state.id = earlier.state.id → earlier.state.terminal = true → later.state.terminal = true

/-- The store never holds more than `maxTasks`. In a run that brings no snapshot of a task
that was evicted, **no change goes back**: what a handler is told of a task has growing
`seq`, and creates it once; where the end of a task has its greatest `seq`, it is not told
of it running after that. -/
theorem progress_goes_forward (typePrefix : Option JSString) (maxTasks : Option ℚ) :
    (∀ es c, exec step (create typePrefix maxTasks) es = some c →
        (c.store.size : ℚ) ≤ max 1 (maxTasks.getD 100)) ∧
      ∀ es c, Run step Retained (create typePrefix maxTasks) es c → ∀ handler,
        (c.told handler).Pairwise Follows ∧
          ((∀ a ∈ c.changes, ∀ b ∈ c.changes, a.state.id = b.state.id →
              a.state.terminal = true → b.state.terminal = false → b.state.seq < a.state.seq) →
            (c.told handler).Pairwise Ended) := by
  refine ⟨fun es c hexec => ?_, fun es c run handler => ?_⟩
  · have run : Run step (fun _ _ => True) (create typePrefix maxTasks) es c :=
      Run.of_exec (fun _ _ => trivial) hexec
    have within := run.invariant (Within · (max 1 (maxTasks.getD 100)))
      (fun _ _ _ h _ hstep => within_step (le_max_left _ _) h hstep)
      (within_create typePrefix maxTasks)
    exact within.2
  · have forward := run.invariant Forward (fun _ _ _ h good hstep => forward_step h good hstep)
      (forward_create typePrefix maxTasks)
    have ordered := forward.ordered.sublist (forward.heard handler)
    refine ⟨ordered, fun last => ?_⟩
    refine ordered.imp_of_mem fun {later earlier} hl he follows same ended => ?_
    by_contra running
    have less := last earlier ((forward.heard handler).subset he) later
      ((forward.heard handler).subset hl) same.symm ended (by simpa using running)
    exact absurd (follows same).1 (not_lt_of_gt less)

/-! Two tasks, one of them heard of twice. -/

def progressMessage (id status : String) (seq : Nat) : ConsumerEvent :=
  .message (Json.obj [(lit "type", .str (lit "progress:update")),
    (lit "data", .obj [(lit "id", .str (lit id)), (lit "status", .str (lit status)),
      (lit "seq", .ofNat seq)])]).text

theorem progress_goes_forward_two :
    ∃ c, exec step (create none (some 1)) [.onChange 0, progressMessage "a" "done" 2,
        progressMessage "a" "running" 1, progressMessage "b" "running" 3] = some c ∧
      (c.store.size : ℚ) ≤ 1 ∧ (c.told 0).length = 2 ∧ (c.told 0).Pairwise Follows := by
  obtain ⟨c, run⟩ := Run.of_allGood step Retained (create none (some 1))
    [.onChange 0, progressMessage "a" "done" 2, progressMessage "a" "running" 1,
      progressMessage "b" "running" 3] (by decide +kernel)
  have all := progress_goes_forward none (some 1)
  have size := all.1 _ _ run.exec_eq
  refine ⟨c, run.exec_eq, ?_, ?_, (all.2 _ _ run 0).1⟩
  · simpa using size
  · exact run.read (a := 2) (f := fun c => (c.told 0).length) (by decide +kernel)

/-- What a handler hears of `a`: it ends, and then it is created again, running and with a
smaller `seq`. -/
theorem evicted_task_comes_back :
    (exec step (create none (some 1)) [.onChange 0, progressMessage "a" "done" 2,
        progressMessage "b" "running" 3, progressMessage "a" "running" 1]).map
      (fun c => (c.told 0).map fun change =>
        (change.state.id, change.state.seq, change.state.terminal, change.created)) =
      some [(lit "a", 1, false, true), (lit "b", 3, false, true), (lit "a", 2, true, true)] := by
  decide +kernel

end ProgressConsumer

end LemonModel
