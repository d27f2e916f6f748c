import LemonModel.Sync.Machine

/-!
# Closed handles

What still happens to a handle that was closed. `closed_handles_are_frozen`: nothing is
seen to, unless its pull gets another page or a listener that was running goes on.
-/

namespace LemonModel

open Text

variable {M : Type} [SyncTarget M]

namespace SyncEntry

variable {x y : SyncEntry M}

omit [SyncTarget M] in
/-- All that is seen of a closed handle is as it was when it was closed. -/
def Still (x : SyncEntry M) : Prop := ∀ o ∈ x.atClose, o = x.observed

omit [SyncTarget M] in
/-- What was seen at the close is there exactly for a closed handle. -/
def Marked (x : SyncEntry M) : Prop := x.atClose.isSome = x.handle.closed

omit [SyncTarget M] in
theorem still_iff (marked : x.Marked) (still : x.Still) (same : y.atClose = x.atClose) :
    y.Still ↔ (x.handle.closed = true → y.observed = x.observed) := by
  unfold Still
  rw [same]
  cases closed : x.atClose with
  | none =>
    rw [Marked, closed] at marked
    simp [← marked]
  | some o =>
    rw [Marked, closed] at marked
    have own := still o closed
    simp [← marked, own, eq_comm]

omit [SyncTarget M] in
theorem marked_same (marked : x.Marked) (same : y.atClose = x.atClose)
    (closed : y.handle.closed = x.handle.closed) : y.Marked := by
  rw [Marked, same, closed]
  exact marked

omit [SyncTarget M] in
theorem goOn_parts (x : SyncEntry M) (handle : ModelSyncHandle M) :
    (x.goOn handle).atClose = x.atClose ∧ (x.goOn handle).handle = handle ∧
      (x.goOn handle).written = x.written := by
  unfold goOn
  split <;> exact ⟨rfl, rfl, rfl⟩

omit [SyncTarget M] in
/-- Going on is seen, unless the pull ends. -/
theorem goOn_observed (x : SyncEntry M) (handle : ModelSyncHandle M)
    (store : handle.store = x.handle.store) (watermark : handle.watermark = x.handle.watermark) :
    (x.goOn handle).observed = x.observed ↔ handle.pulling = none := by
  unfold goOn
  cases pulling : handle.pulling with
  | none => simp [observed, store, watermark]
  | some p => cases phase : p.phase <;> simp [observed, phase]

omit [SyncTarget M] in
theorem pull_parts (x : SyncEntry M) : x.pull.atClose = x.atClose ∧
    x.pull.handle.closed = x.handle.closed ∧ (x.handle.closed = true → x.pull = x) := by
  unfold pull
  split
  · exact ⟨rfl, rfl, fun _ => rfl⟩
  · rename_i free
    refine ⟨rfl, ?_, fun closed => absurd (.inl closed) free⟩
    unfold ModelSyncHandle.pull
    split <;> rfl

/-- A closed handle leaves an event alone. -/
theorem applyEvent_parts (x : SyncEntry M) (models : Option (List M)) :
    (x.applyEvent models).atClose = x.atClose ∧
      (x.applyEvent models).handle.closed = x.handle.closed ∧
      (x.handle.closed = true → (x.applyEvent models).observed = x.observed ∧
        x.listening models = []) := by
  refine ⟨rfl, (ModelSyncHandle.tells_event x.handle models).closed, fun closed => ?_⟩
  have same : x.handle.applyEvent models = x.handle := by
    simp [ModelSyncHandle.applyEvent, closed]
  have nothing : x.handle.appliedBy (.event models) = [] := by
    cases models with
    | none => rfl
    | some models =>
      rw [ModelSyncHandle.appliedBy, ModelSyncHandle.arriving, if_pos closed]
      rfl
  have quiet : x.listening models = [] := if_pos nothing
  exact ⟨by simp [observed, applyEvent, same, nothing, quiet], quiet⟩

omit [SyncTarget M] in
/-- Closing a handle records what is seen of it. -/
theorem close_still (still : x.Still) : x.close.Still := by
  unfold close
  split
  · exact still
  · rename_i isOpen
    intro o ho
    obtain rfl : x.observed = o := Option.some.inj ho
    simp [observed, ModelSyncHandle.close, isOpen]

omit [SyncTarget M] in
theorem close_marked (marked : x.Marked) : x.close.Marked := by
  unfold close
  split
  · exact marked
  · rename_i isOpen
    simp [Marked, ModelSyncHandle.close, isOpen]

/-- A page that applies nothing leaves the store and the watermark, and the pull to its
next page. -/
theorem acceptPage_nothing (h : ModelSyncHandle M) (p : Pull M) {models : List M} (next : Bool)
    (nothing : h.appliedBy (.page models next) = []) :
    (h.acceptPage p models next).store = h.store ∧
      (h.acceptPage p models next).watermark = h.watermark ∧
      ((h.acceptPage p models next).pulling = none ↔ next = false) := by
  have applied : (ModelSyncHandle.applyModels h.versionOf h.store models).2 = [] := nothing
  obtain ⟨-, store, watermark⟩ := ModelSyncHandle.acceptPage_parts h p models next
  have same := (applyModels_admitted h.versionOf h.store models).1
  rw [applied] at same watermark
  refine ⟨store.trans same, watermark, ?_⟩
  simp only [ModelSyncHandle.acceptPage, applied, if_true, ModelSyncHandle.nextPage]
  cases next <;> simp

/-- A reply is seen, unless it brings nothing and ends the pull. -/
theorem page_parts {models : List M} {next : Bool} (h : x.page models next = some y) :
    y.atClose = x.atClose ∧ y.handle.closed = x.handle.closed ∧
      (y.observed = x.observed ↔ x.handle.appliedBy (.page models next) = [] ∧ next = false) := by
  obtain ⟨handle, hstep, rfl⟩ := Option.map_eq_some_iff.mp h
  obtain ⟨p, -, -, rfl⟩ := ModelSyncHandle.step_page hstep
  obtain ⟨atClose, own, written⟩ := goOn_parts
    { x with written := x.written + (x.handle.appliedBy (.page models next)).length }
    (x.handle.acceptPage p models next)
  refine ⟨atClose, ?_, ?_⟩
  · rw [own]
    exact (ModelSyncHandle.tells_page x.handle p models next).1.closed
  by_cases nothing : x.handle.appliedBy (.page models next) = []
  · obtain ⟨store, watermark, ends⟩ := acceptPage_nothing x.handle p next nothing
    simp only [nothing, List.length_nil, Nat.add_zero, true_and]
    exact (goOn_observed x _ store watermark).trans ends
  · refine iff_of_false (fun same => nothing ?_) fun none => nothing none.1
    have count := congrArg SyncObserved.written same
    simp only [observed, written] at count
    exact List.eq_nil_of_length_eq_zero (by omega)

/-- A listener that returns is seen, unless it is the last and no page follows. -/
theorem told_parts {ok : Bool} (h : x.told ok = some y) :
    ∃ p l rest next, x.handle.pulling = some p ∧ p.phase = .telling (l :: rest) next ∧
      y.atClose = x.atClose ∧ y.handle.closed = x.handle.closed ∧
      (y.observed = x.observed ↔ (ok = true → rest = [] ∧ next = false)) := by
  obtain ⟨handle, hstep, rfl⟩ := Option.map_eq_some_iff.mp h
  obtain ⟨p, l, rest, next, hp, phase, rfl⟩ := ModelSyncHandle.step_told hstep
  refine ⟨p, l, rest, next, hp, phase, (goOn_parts x _).1, ?_, ?_⟩
  · rw [(goOn_parts x _).2.1]
    cases ok with
    | false => rfl
    | true => exact (ModelSyncHandle.tellRest_tells x.handle p next rest).2.2
  cases ok with
  | false =>
    have same : (x.goOn x.handle.reject).observed = x.observed :=
      (goOn_observed x x.handle.reject rfl rfl).mpr rfl
    exact iff_of_true same nofun
  | true =>
    obtain ⟨-, store, watermark⟩ := ModelSyncHandle.tellRest_pullOnly x.handle p next rest
    rw [if_pos rfl, goOn_observed x _ store watermark]
    cases rest with
    | nil => cases next <;> simp [ModelSyncHandle.tellRest, ModelSyncHandle.nextPage]
    | cons l' rest => simp [ModelSyncHandle.tellRest]

end SyncEntry

omit [SyncTarget M] in
/-- The steps that no closed handle can go wrong in. -/
def SyncMachineEvent.safe : SyncMachineEvent M → Bool
  | .page _ _ _ | .told _ => false
  | _ => true

namespace SyncMachine

variable {s s' : SyncMachine M} {e : SyncMachineEvent M}

omit [SyncTarget M] in
/-- Every closed handle is as it was when it was closed. -/
def Frozen (s : SyncMachine M) : Prop := ∀ x ∈ s.entries, x.Still

omit [SyncTarget M] in
def Recorded (s : SyncMachine M) : Prop := ∀ x ∈ s.entries, x.Marked

/-- To a closed handle no page comes with a model that applies or with a next cursor, and
no listener returns that has others behind it or a page to follow. -/
def Heeded (s : SyncMachine M) : SyncMachineEvent M → Prop
  | .page handle models next =>
    ∀ x ∈ s.entries[handle]?, x.handle.closed = true →
      x.handle.appliedBy (.page models next) = [] ∧ next = false
  | .told true =>
    match s.stack with
    | .event handle (_ :: rest) :: _ =>
      ∀ x ∈ s.entries[handle]?, x.handle.closed = true → rest = []
    | .page handle :: _ =>
      ∀ x ∈ s.entries[handle]?, x.handle.closed = true → ∀ p ∈ x.handle.pulling,
        ∀ l rest next, p.phase = .telling (l :: rest) next → rest = [] ∧ next = false
    | _ => True
  | _ => True

omit [SyncTarget M] in
/-- Nothing of a handle is under way: no pull, and no listener of it is being called. -/
def Quiet (s : SyncMachine M) (handle : Nat) : Prop :=
  (∀ x ∈ s.entries[handle]?, x.handle.pulling = none) ∧ ∀ ls, .event handle ls ∉ s.stack

omit [SyncTarget M] in
/-- Handles are closed only while nothing of them is under way. -/
def ClosesQuiet (s : SyncMachine M) : SyncMachineEvent M → Prop
  | .closeHandle handle => s.Quiet handle
  | .close => ∀ handle ∈ s.handles.entries.map (·.2), s.Quiet handle
  | _ => True

/-! ## One step -/

omit [SyncTarget M] in
/-- Where one handle changes, it alone is judged. -/
theorem judged_set {handle : Nat} {x y : SyncEntry M} (here : s.entries[handle]? = some x)
    (recorded : s.Recorded) (frozen : s.Frozen) (marked : y.Marked) {s' : SyncMachine M}
    (entries : s'.entries = s.entries.set handle y) :
    s'.Recorded ∧ (s'.Frozen ↔ y.Still) := by
  rw [Recorded, Frozen, entries]
  refine ⟨fun z hz => ?_, ?_, ?_⟩
  · rcases List.mem_or_eq_of_mem_set hz with old | rfl
    · exact recorded z old
    · exact marked
  · intro all
    exact all y (List.mem_set (List.getElem?_eq_some_iff.mp here).1 y)
  · intro still z hz
    rcases List.mem_or_eq_of_mem_set hz with old | rfl
    · exact frozen z old
    · exact still

omit [SyncTarget M] in
theorem change_eq {handle : Nat} {f : SyncEntry M → Option (SyncEntry M)}
    (h : s.change handle f = some s') :
    ∃ x y, s.entries[handle]? = some x ∧ f x = some y ∧
      s' = { s with entries := s.entries.set handle y } := by
  obtain ⟨x, here, changed⟩ := Option.bind_eq_some_iff.mp h
  obtain ⟨y, own, rfl⟩ := Option.map_eq_some_iff.mp changed
  exact ⟨x, y, here, own, rfl⟩

/-- Both invariants, for the steps that are always heeded. -/
def Sound (l : List (SyncEntry M)) : Prop := ∀ x ∈ l, x.Marked ∧ x.Still

omit [SyncTarget M] in
theorem sound_set {l : List (SyncEntry M)} (h : Sound l) (handle : Nat) {y : SyncEntry M}
    (marked : y.Marked) (still : y.Still) : Sound (l.set handle y) := by
  intro z hz
  rcases List.mem_or_eq_of_mem_set hz with old | rfl
  · exact h z old
  · exact ⟨marked, still⟩

omit [SyncTarget M] in
/-- A change that is not seen of a closed handle. -/
theorem sound_change {x y : SyncEntry M} (h : x.Marked ∧ x.Still) (same : y.atClose = x.atClose)
    (closed : y.handle.closed = x.handle.closed)
    (unseen : x.handle.closed = true → y.observed = x.observed) : y.Marked ∧ y.Still :=
  ⟨SyncEntry.marked_same h.1 same closed, (SyncEntry.still_iff h.1 h.2 same).mpr unseen⟩

omit [SyncTarget M] in
theorem sound_pull {x : SyncEntry M} (h : x.Marked ∧ x.Still) : x.pull.Marked ∧ x.pull.Still := by
  obtain ⟨same, closed, unseen⟩ := SyncEntry.pull_parts x
  exact sound_change h same closed fun c => by rw [unseen c]

omit [SyncTarget M] in
theorem onChange_parts (x : SyncEntry M) (listener : Nat) :
    (x.handle.onChange listener).closed = x.handle.closed ∧
      ({ x with handle := x.handle.onChange listener } : SyncEntry M).observed = x.observed := by
  unfold ModelSyncHandle.onChange
  split <;> exact ⟨rfl, rfl⟩

omit [SyncTarget M] in
theorem sound_modify {l : List (SyncEntry M)} (h : Sound l) (handle : Nat) :
    Sound (l.modify handle SyncEntry.pull) := by
  intro z hz
  obtain ⟨j, hj⟩ := List.mem_iff_getElem?.mp hz
  rw [List.getElem?_modify] at hj
  obtain ⟨x, here, own⟩ := Option.map_eq_some_iff.mp hj
  have old := h x (List.mem_of_getElem? here)
  split at own
  · rw [← own]
    exact sound_pull old
  · rw [← own]
    exact old

omit [SyncTarget M] in
theorem sound_tick (h : Sound s.entries) : Sound s.tick.entries := by
  have all : ∀ (handles : List Nat) (l : List (SyncEntry M)), Sound l →
      Sound (handles.foldl (fun l handle => l.modify handle SyncEntry.pull) l) := by
    intro handles
    induction handles with
    | nil => exact fun l hl => hl
    | cons handle handles ih => exact fun l hl => ih _ (sound_modify hl handle)
  exact all _ _ h

omit [SyncTarget M] in
theorem sound_closeHandle (h : Sound s.entries) (handle : Nat) :
    Sound (s.closeHandle handle).entries := by
  unfold closeHandle
  split
  · exact h
  · rename_i x here
    split
    · exact h
    · obtain ⟨marked, still⟩ := h x (List.mem_of_getElem? here)
      exact sound_set h handle (SyncEntry.close_marked marked) (SyncEntry.close_still still)

omit [SyncTarget M] in
theorem sound_close (h : Sound s.entries) : Sound s.close.entries := by
  unfold close
  split
  · exact h
  · generalize s.handles.entries.map (·.2) = handles
    have all : ∀ u : SyncMachine M, Sound u.entries →
        Sound (handles.foldl closeHandle u).entries := by
      induction handles with
      | nil => exact fun u hu => hu
      | cons handle handles ih => exact fun u hu => ih _ (sound_closeHandle hu handle)
    exact all _ h

theorem sound_register (h : Sound s.entries) (type : JSString) (adapter : SyncProtocolAdapter M)
    (initialPull : Option Bool) : Sound (s.register type adapter initialPull).entries := by
  unfold register
  split
  · exact h
  · intro x hx
    rcases List.mem_append.mp hx with old | new
    · exact h x old
    · have fresh : (⟨type, .create adapter, 0, 0, 0, none⟩ : SyncEntry M).Marked ∧
          (⟨type, .create adapter, 0, 0, 0, none⟩ : SyncEntry M).Still :=
        ⟨rfl, fun o ho => (nomatch ho)⟩
      rw [List.mem_singleton.mp new]
      split
      · exact sound_pull fresh
      · exact fresh

theorem sound_safe (h : Sound s.entries) (safe : SyncMachineEvent.safe e = true)
    (hstep : s.step e = some s') : Sound s'.entries := by
  have changed : ∀ {handle : Nat} {f : SyncEntry M → Option (SyncEntry M)},
      (∀ x y, x.Marked ∧ x.Still → f x = some y → y.Marked ∧ y.Still) →
      s.change handle f = some s' → Sound s'.entries := by
    intro handle f kept hchange
    obtain ⟨x, y, here, own, rfl⟩ := change_eq hchange
    obtain ⟨marked, still⟩ := kept x y (h x (List.mem_of_getElem? here)) own
    exact sound_set h handle marked still
  cases e with
  | page handle models next => cases safe
  | told ok => cases safe
  | register type adapter initialPull =>
    obtain ⟨-, next⟩ := Option.ite_none_right_eq_some.mp hstep
    rw [← Option.some.inj next]
    exact sound_register h type adapter initialPull
  | tick =>
    obtain ⟨-, next⟩ := Option.ite_none_right_eq_some.mp hstep
    rw [← Option.some.inj next]
    exact sound_tick h
  | close =>
    obtain ⟨-, next⟩ := Option.ite_none_right_eq_some.mp hstep
    rw [← Option.some.inj next]
    exact sound_close h
  | closeHandle handle =>
    obtain ⟨-, next⟩ := Option.ite_none_right_eq_some.mp hstep
    rw [← Option.some.inj next]
    exact sound_closeHandle h handle
  | message type =>
    obtain ⟨-, next⟩ := Option.ite_none_right_eq_some.mp hstep
    rw [← Option.some.inj next]
    unfold dispatchEvent
    split <;> exact h
  | pull handle =>
    obtain ⟨-, next⟩ := Option.ite_none_right_eq_some.mp hstep
    refine changed (fun x y own hy => ?_) next
    rw [← Option.some.inj hy]
    exact sound_pull own
  | onChange handle listener =>
    obtain ⟨-, next⟩ := Option.ite_none_right_eq_some.mp hstep
    refine changed (fun x y own hy => ?_) next
    obtain ⟨closed, seen⟩ := onChange_parts x listener
    rw [← Option.some.inj hy]
    exact sound_change own rfl closed fun _ => seen
  | unsubscribe handle listener =>
    obtain ⟨-, next⟩ := Option.ite_none_right_eq_some.mp hstep
    refine changed (fun x y own hy => ?_) next
    rw [← Option.some.inj hy]
    exact sound_change own rfl rfl fun _ => rfl
  | fail handle =>
    obtain ⟨-, next⟩ := Option.ite_none_right_eq_some.mp hstep
    refine changed (fun x y own hy => ?_) next
    obtain ⟨handle', failed, rfl⟩ := Option.map_eq_some_iff.mp hy
    obtain ⟨p, -, -, rfl⟩ := ModelSyncHandle.step_fail failed
    exact sound_change own rfl rfl fun _ => rfl
  | proceed models =>
    simp only [step, proceed] at hstep
    split at hstep
    · rw [← Option.some.inj hstep]
      exact h
    · obtain ⟨x, here, next⟩ := Option.bind_eq_some_iff.mp hstep
      rw [← Option.some.inj next]
      have own := h x (List.mem_of_getElem? here)
      obtain ⟨same, closed, unseen⟩ := SyncEntry.applyEvent_parts x models
      obtain ⟨marked, still⟩ := sound_change own same closed fun c => (unseen c).1
      exact sound_set h _ marked still
    · cases hstep
  | parseThrows =>
    simp only [step] at hstep
    split at hstep
    · rw [← Option.some.inj hstep]
      exact h
    · cases hstep

/-- **Exactly the heeded steps keep the closed handles as they are.** -/
theorem judged (recorded : s.Recorded) (frozen : s.Frozen) (hstep : s.step e = some s') :
    s'.Recorded ∧ (s'.Frozen ↔ s.Heeded e) := by
  have sound : Sound s.entries := fun x hx => ⟨recorded x hx, frozen x hx⟩
  cases e with
  | page handle models next =>
    obtain ⟨-, paged⟩ := Option.ite_none_right_eq_some.mp hstep
    obtain ⟨x, here, own⟩ := Option.bind_eq_some_iff.mp paged
    obtain ⟨y, hy, rfl⟩ := Option.map_eq_some_iff.mp own
    obtain ⟨marked, still⟩ := sound x (List.mem_of_getElem? here)
    obtain ⟨same, closed, seen⟩ := SyncEntry.page_parts hy
    refine And.imp_right (fun only => only.trans ?_) (judged_set here recorded frozen
      (SyncEntry.marked_same marked same closed) rfl)
    rw [SyncEntry.still_iff marked still same, seen]
    simp [Heeded, here]
  | told ok =>
    simp only [step, told] at hstep
    split at hstep
    · rename_i handle l rest below running
      split at hstep
      · rename_i thrown
        obtain rfl := thrown
        rw [← Option.some.inj hstep]
        exact ⟨recorded, iff_of_true frozen trivial⟩
      · rename_i returned
        obtain rfl : ok = true := by simpa using returned
        simp only [Heeded, running]
        split at hstep
        · rename_i last
          rw [← Option.some.inj hstep]
          exact ⟨recorded, iff_of_true frozen fun _ _ _ => last⟩
        · rename_i others
          obtain ⟨x, y, here, own, rfl⟩ := change_eq hstep
          obtain ⟨marked, still⟩ := sound x (List.mem_of_getElem? here)
          have value := Option.some.inj own
          obtain ⟨same, closed, calls⟩ : y.atClose = x.atClose ∧
              y.handle.closed = x.handle.closed ∧ y.calls = x.calls + 1 := by
            rw [← value]
            exact ⟨rfl, rfl, rfl⟩
          have told : y.observed ≠ x.observed := by
            intro unseen
            have count : y.calls = x.calls := congrArg SyncObserved.calls unseen
            omega
          refine And.imp_right (fun only => only.trans ?_) (judged_set here recorded frozen
            (SyncEntry.marked_same marked same closed) rfl)
          have here' : s.entries[handle]? = some x := here
          rw [SyncEntry.still_iff marked still same, here']
          simp [told, others]
    · rename_i handle below running
      obtain ⟨x, here, own⟩ := Option.bind_eq_some_iff.mp hstep
      obtain ⟨y, hy, rfl⟩ := Option.map_eq_some_iff.mp own
      obtain ⟨marked, still⟩ := sound x (List.mem_of_getElem? here)
      obtain ⟨p, l, rest, next, hp, phase, same, closed, seen⟩ := SyncEntry.told_parts hy
      refine And.imp_right (fun only => only.trans ?_) (judged_set here recorded frozen
        (SyncEntry.marked_same marked same closed) rfl)
      rw [SyncEntry.still_iff marked still same, seen]
      cases ok with
      | false => exact iff_of_true (fun _ => nofun) trivial
      | true =>
        simp only [Heeded, running, here, Option.mem_def, Option.some.injEq, forall_eq', hp, phase]
        constructor
        · intro ended closed' l' rest' next' same
          cases same
          exact ended closed' trivial
        · intro ended closed' _
          exact ended closed' l rest next rfl
    · cases hstep
  | register _ _ _ | tick | close | pull _ | onChange _ _ | unsubscribe _ _ | closeHandle _
  | message _ | proceed _ | parseThrows | fail _ =>
    have next := sound_safe sound rfl hstep
    exact ⟨fun x hx => (next x hx).1, iff_of_true (fun x hx => (next x hx).2) trivial⟩

/-! ## Runs -/

omit [SyncTarget M] in
/-- The handle is there and closed. -/
def Gone (s : SyncMachine M) (handle : Nat) : Prop :=
  ∃ x, s.entries[handle]? = some x ∧ x.handle.closed = true

omit [SyncTarget M] in
/-- Nothing of a closed handle is under way. -/
structure Ended (s : SyncMachine M) : Prop where
  pulls : ∀ (handle : Nat) (x : SyncEntry M), s.entries[handle]? = some x →
    x.handle.closed = true → x.handle.pulling = none
  listeners : ∀ handle ls, SyncFrame.event handle ls ∈ s.stack → ¬ s.Gone handle

theorem heeded_of_ended (ended : s.Ended) (hstep : s.step e = some s') : s.Heeded e := by
  cases e with
  | page handle models next =>
    intro x here closed
    obtain ⟨-, paged⟩ := Option.ite_none_right_eq_some.mp hstep
    rw [here, Option.bind_some] at paged
    obtain ⟨y, hy, -⟩ := Option.map_eq_some_iff.mp paged
    obtain ⟨after, own, -⟩ := Option.map_eq_some_iff.mp hy
    obtain ⟨p, pulling, -, -⟩ := ModelSyncHandle.step_page own
    rw [ended.pulls handle x here closed] at pulling
    cases pulling
  | told ok =>
    cases ok with
    | false => trivial
    | true =>
      simp only [Heeded]
      split
      · rename_i handle l rest below running
        intro x here closed
        have running' : .event handle (l :: rest) ∈ s.stack := by simp [running]
        exact absurd ⟨x, here, closed⟩ (ended.listeners handle _ running')
      · intro x here closed p pulling
        rw [ended.pulls _ x here closed] at pulling
        cases pulling
      · trivial
  | _ => trivial

omit [SyncTarget M] in
/-- `Ended` is kept where no handle is closed, and closed ones and new listeners are as
they should be. -/
theorem Ended.keep (ended : s.Ended)
    (closed : ∀ (i : Nat) (y : SyncEntry M), s'.entries[i]? = some y → y.handle.closed = true →
      y.handle.pulling = none ∧ s.Gone i)
    (frames : ∀ i ls, SyncFrame.event i ls ∈ s'.stack →
      (∃ ls', SyncFrame.event i ls' ∈ s.stack) ∨ ¬ s.Gone i) : s'.Ended := by
  refine ⟨fun i y hy own => (closed i y hy own).1, ?_⟩
  rintro i ls mem ⟨y, hy, own⟩
  have gone := (closed i y hy own).2
  rcases frames i ls mem with ⟨ls', old⟩ | isOpen
  · exact ended.listeners i ls' old gone
  · exact isOpen gone

omit [SyncTarget M] in
theorem Ended.set (ended : s.Ended) {handle : Nat} {x y : SyncEntry M}
    (here : s.entries[handle]? = some x) (closed : y.handle.closed = x.handle.closed)
    (pulls : y.handle.closed = true → y.handle.pulling = none)
    (entries : s'.entries = s.entries.set handle y)
    (frames : ∀ i ls, SyncFrame.event i ls ∈ s'.stack →
      (∃ ls', SyncFrame.event i ls' ∈ s.stack) ∨ ¬ s.Gone i) : s'.Ended := by
  refine ended.keep (fun i z hz own => ?_) frames
  rw [entries, List.getElem?_set] at hz
  split at hz
  · rename_i same
    split at hz
    · cases hz
      exact ⟨pulls own, x, same ▸ here, closed.symm.trans own⟩
    · cases hz
  · exact ⟨ended.pulls i z hz own, z, hz, own⟩

omit [SyncTarget M] in
/-- A closed handle is not pulled. -/
theorem tick_closed {i : Nat} {y : SyncEntry M} (h : s.tick.entries[i]? = some y)
    (closed : y.handle.closed = true) : s.entries[i]? = some y := by
  have all : ∀ (handles : List Nat) (l : List (SyncEntry M)),
      (handles.foldl (fun l handle => l.modify handle SyncEntry.pull) l)[i]? = some y →
        l[i]? = some y := by
    intro handles
    induction handles with
    | nil => exact fun l hl => hl
    | cons handle handles ih =>
      intro l hl
      have next := ih _ hl
      rw [List.getElem?_modify] at next
      obtain ⟨x, here, own⟩ := Option.map_eq_some_iff.mp next
      split at own
      · obtain ⟨-, same, unpulled⟩ := SyncEntry.pull_parts x
        rw [← own, same] at closed
        rw [here, ← own, unpulled closed]
      · rw [here, own]
  exact all _ _ h

omit [SyncTarget M] in
/-- What closing a handle does to the others. -/
theorem closeHandle_entries {handle i : Nat} {y : SyncEntry M}
    (h : (s.closeHandle handle).entries[i]? = some y) :
    ∃ x, s.entries[i]? = some x ∧ y.handle.pulling = x.handle.pulling ∧
      (y.handle.closed = true → x.handle.closed = true ∨ i = handle) := by
  unfold closeHandle at h
  split at h
  · exact ⟨y, h, rfl, .inl⟩
  · rename_i x here
    split at h
    · exact ⟨y, h, rfl, .inl⟩
    · rw [List.getElem?_set] at h
      split at h
      · rename_i own
        split at h
        · cases h
          refine ⟨x, own ▸ here, ?_, fun _ => .inr own.symm⟩
          unfold SyncEntry.close ModelSyncHandle.close
          split <;> rfl
        · cases h
      · exact ⟨y, h, rfl, .inl⟩

omit [SyncTarget M] in
@[simp]
theorem closeHandle_stack (s : SyncMachine M) (handle : Nat) :
    (s.closeHandle handle).stack = s.stack := by
  unfold closeHandle
  split
  · rfl
  · split <;> rfl

omit [SyncTarget M] in
theorem closeAll_entries (handles : List Nat) {i : Nat} {y : SyncEntry M}
    (h : (handles.foldl closeHandle s).entries[i]? = some y) :
    ∃ x, s.entries[i]? = some x ∧ y.handle.pulling = x.handle.pulling ∧
      (y.handle.closed = true → x.handle.closed = true ∨ i ∈ handles) := by
  induction handles generalizing s with
  | nil => exact ⟨y, h, rfl, .inl⟩
  | cons handle handles ih =>
    obtain ⟨x, hx, pulling, closed⟩ := ih h
    obtain ⟨w, hw, pulling', closed'⟩ := closeHandle_entries hx
    refine ⟨w, hw, pulling.trans pulling', fun gone => ?_⟩
    rcases closed gone with old | mem
    · rcases closed' old with older | rfl
      · exact .inl older
      · exact .inr List.mem_cons_self
    · exact .inr (List.mem_cons_of_mem _ mem)

omit [SyncTarget M] in
theorem closeAll_stack (handles : List Nat) (s : SyncMachine M) :
    (handles.foldl closeHandle s).stack = s.stack := by
  induction handles generalizing s with
  | nil => rfl
  | cons handle handles ih => rw [List.foldl_cons, ih, closeHandle_stack]

omit [SyncTarget M] in
/-- Closing quiet handles leaves nothing of them under way. -/
theorem Ended.closing (ended : s.Ended) {handles : List Nat}
    (quiet : ∀ handle ∈ handles, s.Quiet handle)
    (entries : s'.entries = (handles.foldl closeHandle s).entries) (stack : s'.stack = s.stack) :
    s'.Ended := by
  constructor
  · intro i y hy closed
    rw [entries] at hy
    obtain ⟨x, hx, pulling, from_⟩ := closeAll_entries handles hy
    rw [pulling]
    rcases from_ closed with old | mem
    · exact ended.pulls i x hx old
    · exact (quiet i mem).1 x hx
  · rintro i ls mem ⟨y, hy, closed⟩
    rw [stack] at mem
    rw [entries] at hy
    obtain ⟨x, hx, -, from_⟩ := closeAll_entries handles hy
    rcases from_ closed with old | closing
    · exact ended.listeners i ls mem ⟨x, hx, old⟩
    · exact (quiet i closing).2 ls mem

omit [SyncTarget M] in
/-- A step that leaves the stack, or takes from it. -/
theorem fewer_frames (fewer : ∀ f ∈ s'.stack, f ∈ s.stack) (i : Nat) (ls : List Nat)
    (mem : SyncFrame.event i ls ∈ s'.stack) :
    (∃ ls', SyncFrame.event i ls' ∈ s.stack) ∨ ¬ s.Gone i :=
  .inl ⟨ls, fewer _ mem⟩

omit [SyncTarget M] in
theorem pageFrame_event (x : SyncEntry M) (handle i : Nat) (ls : List Nat) :
    SyncFrame.event i ls ∉ pageFrame x handle := by
  unfold pageFrame
  split <;> simp

theorem register_closed {type : JSString} {adapter : SyncProtocolAdapter M}
    {initialPull : Option Bool} {i : Nat} {y : SyncEntry M}
    (h : (s.register type adapter initialPull).entries[i]? = some y)
    (closed : y.handle.closed = true) : s.entries[i]? = some y := by
  unfold register at h
  split at h
  · exact h
  · rw [List.getElem?_append] at h
    split at h
    · exact h
    · have fresh := List.mem_singleton.mp (List.mem_of_getElem? h)
      have isOpen : y.handle.closed = false := by
        rw [fresh]
        split
        · exact (SyncEntry.pull_parts _).2.1
        · rfl
      rw [closed] at isOpen
      cases isOpen

theorem register_stack (s : SyncMachine M) (type : JSString) (adapter : SyncProtocolAdapter M)
    (initialPull : Option Bool) : (s.register type adapter initialPull).stack = s.stack := by
  unfold register
  split <;> rfl

theorem ended_proceed {models : Option (List M)} (ended : s.Ended)
    (h : s.proceed models = some s') : s'.Ended := by
  unfold proceed at h
  split at h
  · rename_i below running
    rw [← Option.some.inj h]
    refine ⟨ended.pulls, fun i ls mem => ended.listeners i ls ?_⟩
    rw [running]
    exact List.mem_cons_of_mem _ mem
  · rename_i handle left below running
    obtain ⟨x, here, next⟩ := Option.bind_eq_some_iff.mp h
    rw [← Option.some.inj next]
    obtain ⟨-, closed, unseen⟩ := SyncEntry.applyEvent_parts x models
    have pulling : (x.applyEvent models).handle.pulling = x.handle.pulling :=
      (ModelSyncHandle.event_flight x.handle models).1
    refine ended.set here closed (fun gone => ?_) rfl fun i ls mem => ?_
    · rw [closed] at gone
      exact pulling.trans (ended.pulls handle x here gone)
    · have old : ∀ f ∈ below, f ∈ s.stack := fun f hf => by simp [running, hf]
      simp only at mem
      split at mem
      · rcases List.mem_cons.mp mem with same | mem
        · cases same
        · exact .inl ⟨ls, old _ mem⟩
      · rename_i listening
        rcases List.mem_cons.mp mem with same | mem
        · cases same
          right
          rintro ⟨w, hw, gone⟩
          obtain rfl := Option.some.inj (here.symm.trans hw)
          exact listening (unseen gone).2
        · rcases List.mem_cons.mp mem with same | mem
          · cases same
          · exact .inl ⟨ls, old _ mem⟩
  · cases h

theorem ended_told {ok : Bool} (ended : s.Ended) (h : s.told ok = some s') : s'.Ended := by
  unfold told at h
  split at h
  · rename_i handle l rest below running
    have old : ∀ f ∈ below, f ∈ s.stack := fun f hf => by simp [running, hf]
    split at h
    · rw [← Option.some.inj h]
      exact ⟨ended.pulls, fun i ls mem => ended.listeners i ls (old _ (List.mem_of_mem_drop mem))⟩
    · split at h
      · rw [← Option.some.inj h]
        exact ⟨ended.pulls, fun i ls mem => ended.listeners i ls (old _ mem)⟩
      · obtain ⟨x, y, here, own, rfl⟩ := change_eq h
        have value := Option.some.inj own
        have here' : s.entries[handle]? = some x := here
        refine ended.set here' (by rw [← value]) (fun gone => ?_) rfl fun i ls mem => ?_
        · rw [← value] at gone ⊢
          exact ended.pulls handle x here' gone
        · rcases List.mem_cons.mp mem with same | mem
          · cases same
            exact .inl ⟨l :: rest, by simp [running]⟩
          · exact .inl ⟨ls, old _ mem⟩
  · rename_i handle below running
    obtain ⟨x, here, own⟩ := Option.bind_eq_some_iff.mp h
    obtain ⟨y, hy, rfl⟩ := Option.map_eq_some_iff.mp own
    obtain ⟨p, l, rest, next, pulling, -, -, closed, -⟩ := SyncEntry.told_parts hy
    refine ended.set here closed (fun gone => ?_) rfl fun i ls mem => ?_
    · rw [closed] at gone
      rw [ended.pulls handle x here gone] at pulling
      cases pulling
    · rcases List.mem_append.mp mem with page | mem
      · exact absurd page (pageFrame_event y handle i ls)
      · exact .inl ⟨ls, by simp [running, mem]⟩
  · cases h

omit [SyncTarget M] in
/-- A change that closes no handle, and starts nothing of a closed one. -/
theorem ended_change (ended : s.Ended) {handle : Nat} {f : SyncEntry M → Option (SyncEntry M)}
    (kept : ∀ x y : SyncEntry M, (x.handle.closed = true → x.handle.pulling = none) →
      f x = some y → y.handle.closed = x.handle.closed ∧
        (y.handle.closed = true → y.handle.pulling = none))
    (hchange : s.change handle f = some s') : s'.Ended := by
  obtain ⟨x, y, here, own, rfl⟩ := change_eq hchange
  obtain ⟨closed, pulls⟩ := kept x y (ended.pulls handle x here) own
  exact ended.set here closed pulls rfl (fewer_frames fun _ h => h)

omit [SyncTarget M] in
theorem ended_close (ended : s.Ended) (closes : s.ClosesQuiet .close) : s.close.Ended := by
  unfold SyncMachine.close
  split
  · exact ended
  · have open' : ({ s with closed := true } : SyncMachine M).Ended := ⟨ended.pulls, ended.listeners⟩
    exact open'.closing closes rfl (closeAll_stack _ _)

/-- A page comes: of a closed handle none is asked for. -/
theorem ended_page (ended : s.Ended) {handle : Nat} {models : List M} {next : Bool}
    (hstep : s.step (.page handle models next) = some s') : s'.Ended := by
  obtain ⟨-, paged⟩ := Option.ite_none_right_eq_some.mp hstep
  obtain ⟨x, here, own⟩ := Option.bind_eq_some_iff.mp paged
  obtain ⟨y, hy, rfl⟩ := Option.map_eq_some_iff.mp own
  obtain ⟨-, closed, -⟩ := SyncEntry.page_parts hy
  refine ended.set here closed (fun gone => ?_) rfl fun i ls mem => ?_
  · obtain ⟨after, stepped, -⟩ := Option.map_eq_some_iff.mp hy
    obtain ⟨p, pulling, -, -⟩ := ModelSyncHandle.step_page stepped
    rw [closed] at gone
    rw [ended.pulls handle x here gone] at pulling
    cases pulling
  · exact absurd mem (pageFrame_event y handle i ls)

theorem ended_step (ended : s.Ended) (closes : s.ClosesQuiet e) (hstep : s.step e = some s') :
    s'.Ended := by
  cases e with
  | register type adapter initialPull =>
    obtain ⟨-, next⟩ := Option.ite_none_right_eq_some.mp hstep
    rw [← Option.some.inj next]
    refine ended.keep (fun i y hy own => ?_) (fewer_frames fun f hf => ?_)
    · have old := register_closed hy own
      exact ⟨ended.pulls i y old own, y, old, own⟩
    · rwa [register_stack] at hf
  | tick =>
    obtain ⟨-, next⟩ := Option.ite_none_right_eq_some.mp hstep
    rw [← Option.some.inj next]
    refine ended.keep (fun i y hy own => ?_) (fewer_frames fun _ h => h)
    have old := tick_closed hy own
    exact ⟨ended.pulls i y old own, y, old, own⟩
  | close =>
    obtain ⟨-, next⟩ := Option.ite_none_right_eq_some.mp hstep
    rw [← Option.some.inj next]
    exact ended_close ended closes
  | closeHandle handle =>
    obtain ⟨-, next⟩ := Option.ite_none_right_eq_some.mp hstep
    rw [← Option.some.inj next]
    refine @Ended.closing _ s _ ended [handle] (fun i mem => ?_) rfl (closeHandle_stack s handle)
    rw [List.mem_singleton.mp mem]
    exact closes
  | message type =>
    obtain ⟨-, next⟩ := Option.ite_none_right_eq_some.mp hstep
    rw [← Option.some.inj next]
    unfold dispatchEvent
    split
    · exact ended
    · refine ⟨ended.pulls, fun i ls mem => ended.listeners i ls ?_⟩
      simpa using mem
  | pull handle =>
    obtain ⟨-, next⟩ := Option.ite_none_right_eq_some.mp hstep
    refine ended_change ended (fun x y idle hy => ?_) next
    rw [← Option.some.inj hy]
    obtain ⟨-, closed, same⟩ := SyncEntry.pull_parts x
    refine ⟨closed, fun own => ?_⟩
    rw [closed] at own
    rw [same own]
    exact idle own
  | onChange handle listener =>
    obtain ⟨-, next⟩ := Option.ite_none_right_eq_some.mp hstep
    refine ended_change ended (fun x y idle hy => ?_) next
    obtain ⟨closed, -⟩ := onChange_parts x listener
    have pulling : (x.handle.onChange listener).pulling = x.handle.pulling := by
      unfold ModelSyncHandle.onChange
      split <;> rfl
    rw [← Option.some.inj hy]
    refine ⟨closed, fun own => pulling.trans (idle (closed.symm.trans own))⟩
  | unsubscribe handle listener =>
    obtain ⟨-, next⟩ := Option.ite_none_right_eq_some.mp hstep
    refine ended_change ended (fun x y idle hy => ?_) next
    rw [← Option.some.inj hy]
    exact ⟨rfl, idle⟩
  | fail handle =>
    obtain ⟨-, next⟩ := Option.ite_none_right_eq_some.mp hstep
    refine ended_change ended (fun x y idle hy => ?_) next
    obtain ⟨handle', failed, rfl⟩ := Option.map_eq_some_iff.mp hy
    obtain ⟨p, -, -, rfl⟩ := ModelSyncHandle.step_fail failed
    exact ⟨rfl, fun _ => rfl⟩
  | page handle models next => exact ended_page ended hstep
  | proceed models => exact ended_proceed ended hstep
  | parseThrows =>
    simp only [step] at hstep
    split at hstep
    · rename_i handle left below running
      rw [← Option.some.inj hstep]
      refine ⟨ended.pulls, fun i ls mem => ended.listeners i ls ?_⟩
      rw [running]
      exact List.mem_cons_of_mem _ mem
    · cases hstep
  | told ok => exact ended_told ended hstep

/-- **When closed handles are frozen.** In every state of a run, nothing that is seen of
a closed handle has changed since it was closed, exactly if every step is heeded; so it is
where handles are closed only while nothing of them is under way. -/
theorem closed_handles_are_frozen {es : List (SyncMachineEvent M)}
    (run : exec step (create : SyncMachine M) es = some s) :
    ((∀ pre t, pre <+: es → exec step (create : SyncMachine M) pre = some t → t.Frozen) ↔
        Run step Heeded (create : SyncMachine M) es s) ∧
      (Run step ClosesQuiet (create : SyncMachine M) es s →
        Run step Heeded (create : SyncMachine M) es s) := by
  constructor
  · exact exec_judged_iff (fun _ _ _ => judged) (fun _ mem => (nomatch mem))
      (fun _ mem => (nomatch mem)) run
  · intro quiet
    have start : (create : SyncMachine M).Ended :=
      ⟨fun _ _ here => (nomatch here), fun _ _ mem => (nomatch mem)⟩
    exact quiet.imply (fun _ _ _ ended closes hstep =>
      ⟨ended_step ended closes hstep, heeded_of_ended ended hstep⟩) start

/-- A handle is closed once its first pull is over; a message changes nothing of it. -/
theorem closed_handles_are_frozen_notes : ∃ s : SyncMachine Note,
    exec step create [.register (lit "n") ⟨none⟩ none, .page 0 [written] false, .closeHandle 0,
      .message (lit "note"), .proceed none] = some s ∧ s.Frozen := by
  obtain ⟨s, quiet⟩ : ∃ s, Run step ClosesQuiet (create : SyncMachine Note)
      [.register (lit "n") ⟨none⟩ none, .page 0 [written] false, .closeHandle 0,
        .message (lit "note"), .proceed none] s := by
    refine ⟨_, .cons trivial rfl (.cons trivial rfl (.cons ⟨?_, nofun⟩ rfl
      (.cons trivial rfl (.cons trivial rfl (.nil _)))))⟩
    intro x hx
    cases hx
    rfl
  obtain ⟨frozen, heeded⟩ := closed_handles_are_frozen quiet.exec_eq
  exact ⟨s, quiet.exec_eq, frozen.mpr (heeded quiet) _ _ List.prefix_rfl quiet.exec_eq⟩

/-- A handle is closed while its first request is out: the reply changes its store, and
another request follows. -/
theorem closed_handle_goes_on : ∃ (s : SyncMachine Note) (x : SyncEntry Note),
    exec step create [.register (lit "n") ⟨none⟩ none, .closeHandle 0, .page 0 [written] true] =
        some s ∧
      s.entries = [x] ∧ x.handle.closed = true ∧
      x.atClose.map (fun o => (o.store.keys, o.requests)) = some ([], 1) ∧
      x.handle.list = [written] ∧ x.requests = 2 ∧ ¬ s.Frozen := by
  refine ⟨_, _, rfl, rfl, rfl, rfl, by decide +kernel, rfl, fun frozen => ?_⟩
  have same := congrArg SyncObserved.requests (frozen _ List.mem_cons_self _ rfl)
  revert same
  decide

end SyncMachine

end LemonModel
