import LemonModel.Sync.Pull

/-!
# The change stream

What a listener that hears every change event makes of them: it sets each model, or
removes it where it is a deletion. `change_stream_mirrors`: that is the store.
-/

namespace LemonModel

open Text ModelSyncHandle

variable {M : Type} [SyncTarget M]

/-- What a listener does with a model it is told. -/
def replay (store : Dict JSString M) (model : M) : Dict JSString M :=
  match SyncTarget.id model with
  | none => store
  | some id => if deleted model then store.delete id else store.set id model

/-- The change events folded over an empty map, the last one first. -/
def mirror (changes : List (SyncChangeEvent M)) : Dict JSString M :=
  changes.foldr (fun change store => change.models.foldl replay store) .empty

omit [SyncTarget M] in
/-- Every model the listener was told, in order. -/
def notified (changes : List (SyncChangeEvent M)) : List M :=
  changes.reverse.flatMap (·.models)

omit [SyncTarget M] in
/-- The models of the change events with cause `pull`, in order. -/
def pulled (changes : List (SyncChangeEvent M)) : List M :=
  notified (changes.filter (·.cause = .pull))

omit [SyncTarget M] in
def ModelSyncHandle.list (h : ModelSyncHandle M) : List M := h.store.entries.map (·.2)

/-- The cause of the change event that an event brings. -/
def HandleEvent.cause : HandleEvent M → Cause
  | .page _ _ => .pull
  | _ => .event

/-- Events, pulls, and a listener that neither throws nor does anything to the handle. -/
def Plain : HandleEvent M → Prop
  | .event _ | .pull | .page _ _ | .fail | .told true => True
  | _ => False

instance (e : HandleEvent M) : Decidable (Plain e) :=
  match e with
  | .event _ | .pull | .page _ _ | .fail | .told true => isTrue trivial
  | .told false | .onChange _ | .unsubscribe _ | .close => isFalse id

/-- Of two versions of an id that were told, with no removal of it from the first on and
before the second, the second is greater. -/
def Increasing (versionOf : M → Option ℚ) (told : List M) : Prop :=
  ∀ id before a between b after, told = before ++ a :: (between ++ b :: after) →
    SyncTarget.id a = some id → SyncTarget.id b = some id →
    (∀ m ∈ a :: between, SyncTarget.id m = some id → deleted m = false) →
    ∃ v w, versionOf a = some v ∧ versionOf b = some w ∧ v < w

omit [SyncTarget M] in
theorem notified_append (newer older : List (SyncChangeEvent M)) :
    notified (newer ++ older) = notified older ++ notified newer := by
  simp [notified]

theorem mirror_eq (changes : List (SyncChangeEvent M)) :
    mirror changes = (notified changes).foldl replay .empty := by
  induction changes with
  | nil => rfl
  | cons change changes ih =>
    have split : notified (change :: changes) = notified changes ++ change.models := by
      simp [notified]
    rw [split, List.foldl_append, ← ih]
    rfl

/-! ## Models that are applied -/

variable {versionOf : M → Option ℚ} {store : Dict JSString M} {m : M} {l l' : List M}

/-- An applied model has an id and a version; it is newer than what is stored, and not a
deletion where nothing is. -/
theorem applied_iff : (applyOne versionOf store m).2 = true ↔
    ∃ id v, SyncTarget.id m = some id ∧ versionOf m = some v ∧
      match store.get? id with
      | none => deleted m = false
      | some here => stale v (versionOf here) = false := by
  unfold applyOne
  cases hid : SyncTarget.id m with
  | none => simp
  | some id =>
    cases hv : versionOf m with
    | none => simp
    | some v =>
      simp only [Option.some.injEq, exists_and_left, exists_eq_left']
      cases hs : store.get? id with
      | none => cases hd : deleted m <;> simp
      | some here => cases hst : stale v (versionOf here) <;> cases hd : deleted m <;> simp [hst]

theorem applyOne_store (versionOf : M → Option ℚ) (store : Dict JSString M) (m : M) :
    (applyOne versionOf store m).1 =
      if (applyOne versionOf store m).2 then replay store m else store := by
  unfold applyOne replay
  cases hid : SyncTarget.id m with
  | none => rfl
  | some id =>
    cases hv : versionOf m with
    | none => rfl
    | some v =>
      simp only
      cases hs : store.get? id with
      | none => cases hd : deleted m <;> simp
      | some here => cases hst : stale v (versionOf here) <;> cases hd : deleted m <;> simp [hst]

/-- Each model of a list in turn is applied. -/
inductive Admitted (versionOf : M → Option ℚ) : Dict JSString M → List M → Prop where
  | nil (store : Dict JSString M) : Admitted versionOf store []
  | cons {store : Dict JSString M} {m : M} {l : List M} :
    (applyOne versionOf store m).2 = true → Admitted versionOf (replay store m) l →
      Admitted versionOf store (m :: l)

theorem Admitted.append (h : Admitted versionOf store l)
    (h' : Admitted versionOf (l.foldl replay store) l') : Admitted versionOf store (l ++ l') := by
  induction h with
  | nil store => exact h'
  | cons applied _ ih => exact .cons applied (ih h')

theorem Admitted.drop (h : Admitted versionOf store (l ++ l')) :
    Admitted versionOf (l.foldl replay store) l' := by
  induction l generalizing store with
  | nil => exact h
  | cons m l ih =>
    cases h with
    | cons _ rest => exact ih rest

/-- **What `applyModels` returns is what it did.** -/
theorem applyModels_admitted (versionOf : M → Option ℚ) (store : Dict JSString M)
    (models : List M) :
    (applyModels versionOf store models).1 =
        (applyModels versionOf store models).2.foldl replay store ∧
      Admitted versionOf store (applyModels versionOf store models).2 := by
  induction models generalizing store with
  | nil => exact ⟨rfl, .nil store⟩
  | cons m models ih =>
    obtain ⟨same, admitted⟩ := ih (applyOne versionOf store m).1
    have here := applyOne_store versionOf store m
    simp only [applyModels]
    cases applied : (applyOne versionOf store m).2 with
    | false =>
      rw [applied, if_neg (by simp)] at here
      rw [here] at same admitted ⊢
      exact ⟨same, admitted⟩
    | true =>
      rw [applied, if_pos rfl] at here
      rw [here] at same admitted ⊢
      exact ⟨same, .cons applied admitted⟩

/-- What a model leaves of another id. -/
theorem replay_other {id : JSString} (other : SyncTarget.id m ≠ some id) :
    (replay store m).get? id = store.get? id := by
  unfold replay
  cases hid : SyncTarget.id m with
  | none => rfl
  | some x =>
    have apart : id ≠ x := fun same => other (same ▸ hid)
    cases hd : deleted m with
    | true => exact Dict.get?_delete_ne store apart
    | false => exact Dict.get?_set_ne store m apart

theorem replay_own {id : JSString} (own : SyncTarget.id m = some id) (live : deleted m = false) :
    (replay store m).get? id = some m := by
  rw [replay, own]
  simp [live]

/-- What is applied to a stored id has a greater version. -/
theorem applied_newer {id : JSString} {here : M} {v : ℚ}
    (applied : (applyOne versionOf store m).2 = true) (own : SyncTarget.id m = some id)
    (stored : store.get? id = some here) (hv : versionOf here = some v) :
    ∃ w, versionOf m = some w ∧ v < w := by
  obtain ⟨x, w, hx, hw, newer⟩ := applied_iff.mp applied
  obtain rfl : x = id := Option.some.inj (hx.symm.trans own)
  rw [stored] at newer
  simp only [hv, stale, decide_eq_false_iff_not, not_le] at newer
  exact ⟨w, hw, newer⟩

/-- The next version of a stored id is greater than the stored one. -/
theorem Admitted.newer {id : JSString} {here b : M} {v : ℚ}
    (h : Admitted versionOf store (l ++ b :: l')) (stored : store.get? id = some here)
    (hv : versionOf here = some v) (own : SyncTarget.id b = some id)
    (live : ∀ m ∈ l, SyncTarget.id m = some id → deleted m = false) :
    ∃ w, versionOf b = some w ∧ v < w := by
  induction l generalizing store here v with
  | nil =>
    cases h with
    | cons applied _ => exact applied_newer applied own stored hv
  | cons m l ih =>
    cases h with
    | cons applied rest =>
      have live' := fun n hn => live n (List.mem_cons_of_mem _ hn)
      by_cases same : SyncTarget.id m = some id
      · obtain ⟨u, hu, newer⟩ := applied_newer applied same stored hv
        have next : (replay store m).get? id = some m :=
          replay_own same (live m List.mem_cons_self same)
        obtain ⟨w, hw, less⟩ := ih rest next hu live'
        exact ⟨w, hw, newer.trans less⟩
      · exact ih rest ((replay_other same).trans stored) hv live'

theorem Admitted.increasing (h : Admitted versionOf .empty l) : Increasing versionOf l := by
  intro id before a between b after split owna ownb live
  rw [split] at h
  cases h.drop with
  | cons applied rest =>
    obtain ⟨x, v, hx, hv, -⟩ := applied_iff.mp applied
    have stored : (replay (before.foldl replay .empty) a).get? id = some a :=
      replay_own owna (live a List.mem_cons_self owna)
    obtain ⟨w, hw, less⟩ := rest.newer stored hv ownb fun m hm =>
      live m (List.mem_cons_of_mem _ hm)
    exact ⟨v, w, hv, hw, less⟩

/-! ## What a step tells -/

namespace ModelSyncHandle

variable {h h' : ModelSyncHandle M} {e : HandleEvent M}

/-- The models a step applies. -/
def appliedBy (h : ModelSyncHandle M) (e : HandleEvent M) : List M :=
  (applyModels h.versionOf h.store (h.arriving e)).2

/-- The change events of a step: one with the models it applies, if it applies any. -/
def emits (h : ModelSyncHandle M) (e : HandleEvent M) : List (SyncChangeEvent M) :=
  if h.appliedBy e = [] then [] else [⟨HandleEvent.cause e, h.appliedBy e⟩]

theorem notified_emits (h : ModelSyncHandle M) (e : HandleEvent M) :
    notified (h.emits e) = h.appliedBy e := by
  unfold emits
  split
  · rename_i nothing
    rw [nothing]
    rfl
  · simp [notified]

/-- Where a page leaves its pull: it goes on with all it applied so far, or returns that. -/
def Carries (applied : List M) (pulls : List (Option (List M))) (h : ModelSyncHandle M) : Prop :=
  (∃ p, h.pulling = some p ∧ p.applied = applied ∧ h.pulls = pulls) ∨
    (h.pulling = none ∧ h.pulls = some applied :: pulls)

omit [SyncTarget M] in
theorem nextPage_carries (h : ModelSyncHandle M) (p : Pull M) (next : Bool) :
    Carries p.applied h.pulls (h.nextPage p next) := by
  cases next with
  | true => exact .inl ⟨_, rfl, rfl, rfl⟩
  | false => exact .inr ⟨rfl, rfl⟩

omit [SyncTarget M] in
theorem tellRest_carries (h : ModelSyncHandle M) (p : Pull M) (next : Bool) (ls : List Nat) :
    Carries p.applied h.pulls (h.tellRest p next ls) := by
  cases ls with
  | nil => exact nextPage_carries h p next
  | cons l rest => exact .inl ⟨_, rfl, rfl, rfl⟩

/-- What a step does to the changes and the listeners. -/
structure Tells (h : ModelSyncHandle M) (e : HandleEvent M) (h' : ModelSyncHandle M) : Prop where
  changes : h'.changes = h.emits e ++ h.changes
  listeners : h'.changeListeners = h.changeListeners
  closed : h'.closed = h.closed

omit [SyncTarget M] in
theorem nextPage_tells (h : ModelSyncHandle M) (p : Pull M) (next : Bool) :
    (h.nextPage p next).changes = h.changes ∧
      (h.nextPage p next).changeListeners = h.changeListeners ∧
      (h.nextPage p next).closed = h.closed := by
  unfold nextPage
  split <;> exact ⟨rfl, rfl, rfl⟩

omit [SyncTarget M] in
theorem tellRest_tells (h : ModelSyncHandle M) (p : Pull M) (next : Bool) (ls : List Nat) :
    (h.tellRest p next ls).changes = h.changes ∧
      (h.tellRest p next ls).changeListeners = h.changeListeners ∧
      (h.tellRest p next ls).closed = h.closed := by
  cases ls with
  | nil => exact nextPage_tells h p next
  | cons l rest => exact ⟨rfl, rfl, rfl⟩

theorem emits_eq (h : ModelSyncHandle M) {models : List M} (arriving : h.arriving e = models) :
    h.emits e = if (applyModels h.versionOf h.store models).2 = [] then []
      else [⟨HandleEvent.cause e, (applyModels h.versionOf h.store models).2⟩] := by
  rw [emits, appliedBy, arriving]

theorem emits_nothing (h : ModelSyncHandle M) (none : h.arriving e = []) : h.emits e = [] := by
  rw [emits, appliedBy, none]
  rfl

theorem tells_page (h : ModelSyncHandle M) (p : Pull M) (models : List M) (next : Bool) :
    Tells h (.page models next) (h.acceptPage p models next) ∧
      Carries (p.applied ++ h.appliedBy (.page models next)) h.pulls
        (h.acceptPage p models next) := by
  have arriving : h.arriving (.page models next) = models := rfl
  by_cases nothing : (applyModels h.versionOf h.store models).2 = []
  · have silent : h.emits (.page models next) = [] := by
      rw [emits, appliedBy, arriving, if_pos nothing]
    simp only [acceptPage, nothing, if_true]
    obtain ⟨changes, listeners, closed⟩ := nextPage_tells
      { h with
        store := (applyModels h.versionOf h.store models).1
        watermark := raise h.versionOf h.watermark [] } { p with applied := p.applied ++ [] } next
    refine ⟨⟨by rw [changes, silent]; rfl, listeners, closed⟩, ?_⟩
    rw [appliedBy, arriving, nothing]
    exact nextPage_carries _ _ next
  · have one : h.emits (.page models next) =
        [⟨.pull, (applyModels h.versionOf h.store models).2⟩] := by
      rw [emits_eq h arriving, if_neg nothing]
      rfl
    simp only [acceptPage, if_neg nothing]
    obtain ⟨changes, listeners, closed⟩ := tellRest_tells
      (emitChange { h with
        store := (applyModels h.versionOf h.store models).1
        watermark := raise h.versionOf h.watermark (applyModels h.versionOf h.store models).2 }
        .pull (applyModels h.versionOf h.store models).2)
      { p with applied := p.applied ++ (applyModels h.versionOf h.store models).2 } next
      h.changeListeners
    exact ⟨⟨by rw [changes, one]; rfl, listeners, closed⟩, tellRest_carries _ _ next _⟩

theorem tells_event (h : ModelSyncHandle M) (models : Option (List M)) :
    Tells h (.event models) (h.applyEvent models) := by
  unfold applyEvent
  split
  · rename_i closed
    have nothing : h.arriving (.event models) = [] := by
      cases models with
      | none => rfl
      | some models => exact if_pos closed
    refine ⟨?_, rfl, rfl⟩
    rw [emits_nothing h nothing]
    rfl
  · rename_i isOpen
    cases models with
    | none => exact ⟨by rw [emits_nothing h rfl]; rfl, rfl, rfl⟩
    | some models =>
      have arriving : h.arriving (.event (some models)) = models := if_neg isOpen
      have emits := emits_eq h arriving
      simp only
      split
      · rename_i nothing
        exact ⟨by rw [emits, if_pos nothing]; rfl, rfl, rfl⟩
      · rename_i applied
        exact ⟨by rw [emits, if_neg applied]; rfl, rfl, rfl⟩

/-- **What a step tells.** -/
theorem tells_step (plain : Plain e) (hstep : h.step e = some h') : Tells h e h' := by
  cases e with
  | event models =>
    obtain rfl := Option.some.inj hstep
    exact tells_event h models
  | pull =>
    obtain rfl := Option.some.inj hstep
    have silent := emits_nothing h (rfl : h.arriving .pull = [])
    rcases pull_cases h with joined | ⟨-, begun⟩
    · exact ⟨by rw [joined, silent]; rfl, by rw [joined], by rw [joined]⟩
    · exact ⟨by rw [begun, silent]; rfl, by rw [begun], by rw [begun]⟩
  | page models next =>
    obtain ⟨p, -, -, rfl⟩ := step_page hstep
    exact (tells_page h p models next).1
  | fail =>
    obtain ⟨p, -, -, rfl⟩ := step_fail hstep
    exact ⟨by rw [emits_nothing h rfl]; rfl, rfl, rfl⟩
  | told ok =>
    obtain ⟨p, l, rest, next, -, -, rfl⟩ := step_told hstep
    have silent := emits_nothing h (rfl : h.arriving (.told ok) = [])
    cases ok with
    | false => exact plain.elim
    | true =>
      obtain ⟨changes, listeners, closed⟩ := tellRest_tells h p next rest
      rw [if_pos rfl]
      exact ⟨by rw [changes, silent]; rfl, listeners, closed⟩
  | onChange l => exact plain.elim
  | unsubscribe l => exact plain.elim
  | close => exact plain.elim

/-! ## Runs -/

/-- The store is what the listener made of the changes, each of which applied. -/
structure Mirrored (h : ModelSyncHandle M) : Prop where
  store : h.store = mirror h.changes
  admitted : Admitted h.versionOf .empty (notified h.changes)
  isOpen : h.closed = false

theorem Mirrored.step (sound : Mirrored h) (plain : Plain e) (hstep : h.step e = some h') :
    Mirrored h' := by
  obtain ⟨versionOf, store, -⟩ := step_parts hstep
  have tells := tells_step plain hstep
  obtain ⟨same, admitted⟩ := applyModels_admitted h.versionOf h.store (h.arriving e)
  have told : notified h'.changes = notified h.changes ++ h.appliedBy e := by
    rw [tells.changes, notified_append, notified_emits]
  rw [sound.store, mirror_eq] at same admitted
  refine ⟨?_, ?_, tells.closed.trans sound.isOpen⟩
  · rw [store, sound.store, mirror_eq, mirror_eq, told, List.foldl_append, same, appliedBy,
      sound.store, mirror_eq]
  · rw [versionOf, told]
    refine sound.admitted.append ?_
    rw [appliedBy, sound.store, mirror_eq]
    exact admitted

/-- While a pull is in flight it holds what its pages applied; when it ends it returns
that. `older` has the changes from before the pull, and `pulls` the pulls. -/
def Returns (older : List (SyncChangeEvent M)) (pulls : List (Option (List M)))
    (h : ModelSyncHandle M) : Prop :=
  ∃ newer, h.changes = newer ++ older ∧
    (Carries (pulled newer) pulls h ∨ h.pulling = none ∧ h.pulls = none :: pulls)

omit [SyncTarget M] in
theorem pulled_append (newer older : List (SyncChangeEvent M)) :
    pulled (newer ++ older) = pulled older ++ pulled newer := by
  rw [pulled, List.filter_append, notified_append, pulled, pulled]

theorem pulled_emits (h : ModelSyncHandle M) (e : HandleEvent M) :
    pulled (h.emits e) = if HandleEvent.cause e = .pull then h.appliedBy e else [] := by
  unfold emits
  split
  · rename_i nothing
    rw [nothing]
    split <;> rfl
  · by_cases cause : HandleEvent.cause e = .pull <;> simp [pulled, notified, cause]

/-- An event leaves a pull in flight alone. -/
theorem event_flight (h : ModelSyncHandle M) (models : Option (List M)) :
    (h.applyEvent models).pulling = h.pulling ∧ (h.applyEvent models).pulls = h.pulls := by
  unfold applyEvent
  split
  · exact ⟨rfl, rfl⟩
  · cases models with
    | none => exact ⟨rfl, rfl⟩
    | some models =>
      simp only
      split <;> exact ⟨rfl, rfl⟩

theorem returns_step {older : List (SyncChangeEvent M)} {pulls : List (Option (List M))}
    (flight : Returns older pulls h) (going : h.pulls = pulls) (plain : Plain e)
    (hstep : h.step e = some h') : Returns older pulls h' := by
  obtain ⟨newer, changes, carries⟩ := flight
  have longer : ∀ result : Option (List M), h.pulls ≠ result :: pulls := by
    intro result same
    have := congrArg List.length (going.symm.trans same)
    rw [List.length_cons] at this
    omega
  obtain ⟨p, hp, applied⟩ : ∃ p, h.pulling = some p ∧ p.applied = pulled newer := by
    rcases carries with (⟨p, hp, applied, -⟩ | ⟨-, ended⟩) | ⟨-, failed⟩
    · exact ⟨p, hp, applied⟩
    · exact absurd ended (longer _)
    · exact absurd failed (longer _)
  have told := (tells_step plain hstep).changes
  refine ⟨h.emits e ++ newer, by rw [told, changes, List.append_assoc], ?_⟩
  rw [pulled_append, pulled_emits, ← applied]
  cases e with
  | event models =>
    obtain rfl := Option.some.inj hstep
    obtain ⟨pulling, same⟩ := event_flight h models
    refine .inl (.inl ⟨p, pulling.trans hp, ?_, same.trans going⟩)
    simp [HandleEvent.cause]
  | pull =>
    obtain rfl := Option.some.inj hstep
    rcases pull_cases h with joined | ⟨free, -⟩
    · rw [joined]
      refine .inl (.inl ⟨p, hp, ?_, going⟩)
      simp [HandleEvent.cause]
    · rw [hp] at free
      cases free
  | page models next =>
    obtain ⟨q, hq, -, rfl⟩ := step_page hstep
    obtain rfl : p = q := Option.some.inj (hp.symm.trans hq)
    left
    rw [← going]
    exact (tells_page h p models next).2
  | fail =>
    obtain ⟨q, hq, -, rfl⟩ := step_fail hstep
    exact .inr ⟨rfl, by rw [← going]; rfl⟩
  | told ok =>
    obtain ⟨q, l, rest, next, hq, -, rfl⟩ := step_told hstep
    obtain rfl : p = q := Option.some.inj (hp.symm.trans hq)
    cases ok with
    | false => exact plain.elim
    | true =>
      left
      have rests := tellRest_carries h p next rest
      rw [going] at rests
      simpa [HandleEvent.cause] using rests
  | onChange l => exact plain.elim
  | unsubscribe l => exact plain.elim
  | close => exact plain.elim

/-- A step that is taken while the pull from before has not ended. -/
def During (pulls : List (Option (List M))) (h : ModelSyncHandle M) (e : HandleEvent M) : Prop :=
  Plain e ∧ h.pulls = pulls

theorem returns_run {es : List (HandleEvent M)} (sound : Mirrored h) (free : h.pulling = none)
    (run : Run step (During h.pulls) h.pull es h') : Returns h.changes h.pulls h' := by
  have begun : h.pull = { h with pulling := some ⟨h.since, [], .requesting⟩ } := by
    simp [ModelSyncHandle.pull, sound.isOpen, free]
  refine run.invariant _ (fun _ _ _ flight during hstep =>
    returns_step flight during.2 during.1 hstep) ⟨[], by rw [begun]; rfl, ?_⟩
  rw [begun]
  exact .inl (.inl ⟨_, rfl, rfl, rfl⟩)

/-- **The change stream mirrors the store.** A listener that is there from the start and
folds the change events over an empty map has the store after every step; between two
removals of an id its versions increase; and a pull that succeeds returns the models of
the change events with cause `pull` since it began. -/
theorem change_stream_mirrors {adapter : SyncProtocolAdapter M} {listener : Nat}
    {es : List (HandleEvent M)}
    (run : Run step (fun _ e => Plain e) ((create adapter).onChange listener) es h) :
    h.changeListeners = [listener] ∧ mirror h.changes = h.store ∧
      (mirror h.changes).entries.map (·.2) = h.list ∧
      Increasing h.versionOf (notified h.changes) ∧
      (h.pulling = none → ∀ es' h' result, Run step (During h.pulls) h.pull es' h' →
        h'.pulls = some result :: h.pulls →
          ∃ newer, h'.changes = newer ++ h.changes ∧ result = pulled newer) := by
  have start : Mirrored ((create adapter).onChange listener) := ⟨rfl, .nil _, rfl⟩
  have sound := run.invariant Mirrored (fun _ _ _ sound plain hstep => sound.step plain hstep) start
  have listeners := run.invariant (fun h : ModelSyncHandle M => h.changeListeners = [listener])
    (fun _ _ _ here plain hstep => (tells_step plain hstep).listeners.trans here) rfl
  refine ⟨listeners, sound.store.symm, by rw [← sound.store]; rfl, sound.admitted.increasing, ?_⟩
  intro free es' h' result pull ended
  obtain ⟨newer, changes, (⟨p, -, -, same⟩ | ⟨-, returned⟩) | ⟨-, failed⟩⟩ :=
    returns_run sound free pull
  · have := congrArg List.length (same.symm.trans ended)
    rw [List.length_cons] at this
    omega
  · rw [ended] at returned
    cases returned
    exact ⟨newer, changes, rfl⟩
  · rw [ended] at failed
    cases failed

instance [DecidableEq M] (pulls : List (Option (List M))) (h : ModelSyncHandle M)
    (e : HandleEvent M) : Decidable (During pulls h e) := by
  unfold During
  infer_instance

/-- An event between two pages of a pull, which returns what both of them applied. -/
theorem change_stream_mirrors_notes : ∃ h h' : ModelSyncHandle Note,
    Run step (fun _ e => Plain e) ((create ⟨none⟩).onChange 7) [.event (some [written])] h ∧
      mirror h.changes = h.store ∧ h.list = [written] ∧
      Run step (During h.pulls) h.pull
        [.page [removed, removed] true, .told true, .event (some [written]), .page [removed] false,
          .told true] h' ∧
      ∃ newer, h'.changes = newer ++ h.changes ∧ [removed, removed] = pulled newer := by
  have first : Run step (fun _ e => Plain e) ((create (M := Note) ⟨none⟩).onChange 7)
      [.event (some [written])] (((create ⟨none⟩).onChange 7).applyEvent (some [written])) :=
    .cons trivial rfl (.nil _)
  obtain ⟨h', pull⟩ := Run.of_allGood step (During [])
    (((create ⟨none⟩).onChange 7).applyEvent (some [written])).pull
    [.page [removed, removed] true, .told true, .event (some [written]), .page [removed] false,
      .told true] (by decide +kernel)
  have ended : h'.pulls = [some [removed, removed]] :=
    pull.read (f := fun h => h.pulls) (by decide +kernel)
  have own : (((create ⟨none⟩).onChange 7).applyEvent (some [written])).pulls =
      ([] : List (Option (List Note))) := rfl
  obtain ⟨-, store, -, -, returns⟩ := change_stream_mirrors first
  refine ⟨_, h', first, store, by decide +kernel, own ▸ pull, ?_⟩
  exact returns rfl _ h' _ (own ▸ pull) ended

end ModelSyncHandle

end LemonModel
