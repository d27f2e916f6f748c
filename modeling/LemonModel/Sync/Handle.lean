import LemonModel.Base.Dict
import LemonModel.Base.Run
import LemonModel.Text.Utf16

/-!
# The sync handle of one model type

`ModelSyncHandle`: its store, its watermark, and the loop of `doPull`. The adapter
is given by what it parses: an event by the models it carries, a reply by its page.
-/

namespace LemonModel

open Text

/-- The fields of a model the machine reads. `deletedAt` is `none` for a falsy one. -/
class SyncTarget (M : Type) where
  id : M → Option JSString
  updatedAt : M → Option ℚ
  deletedAt : M → Option ℚ

/-- What the machine asks of an adapter besides parsing. -/
structure SyncProtocolAdapter (M : Type) where
  versionOf : Option (M → Option ℚ)

inductive Cause where
  | pull
  | event
  deriving DecidableEq

structure SyncChangeEvent (M : Type) where
  cause : Cause
  models : List M

/-- Where `doPull` stands: a request is out, or the listeners of the page that came
are being told, those left first, and a further page follows if `next`. -/
inductive PullPhase where
  | requesting
  | telling (listeners : List Nat) (next : Bool)
  deriving DecidableEq

/-- A call of `doPull`. -/
structure Pull (M : Type) where
  since : Option ℚ
  applied : List M
  phase : PullPhase

/-- A handle. `changes` has what was told to the listeners and `pulls` how the pulls
ended, the newest first. -/
structure ModelSyncHandle (M : Type) where
  versionOf : M → Option ℚ
  store : Dict JSString M
  changeListeners : List Nat
  watermark : ℚ
  pulling : Option (Pull M)
  closed : Bool
  changes : List (SyncChangeEvent M)
  pulls : List (Option (List M))

variable {M : Type} [SyncTarget M]

/-- Whether a model is a deletion. -/
def deleted (m : M) : Bool := (SyncTarget.deletedAt m).isSome

namespace ModelSyncHandle

def create (adapter : SyncProtocolAdapter M) : ModelSyncHandle M :=
  ⟨adapter.versionOf.getD SyncTarget.updatedAt, .empty, [], 0, none, false, [], []⟩

/-! ## Freshness -/

/-- `localVersion != null && version <= localVersion`. -/
def stale (version : ℚ) (localVersion : Option ℚ) : Bool :=
  match localVersion with
  | some v => version ≤ v
  | none => false

/-- `applyOne` on the store, and whether the model was applied. -/
def applyOne (versionOf : M → Option ℚ) (store : Dict JSString M) (incoming : M) :
    Dict JSString M × Bool :=
  match SyncTarget.id incoming, versionOf incoming with
  | some id, some version =>
    match store.get? id with
    | none => if deleted incoming then (store, false) else (store.set id incoming, true)
    | some here =>
      if stale version (versionOf here) then (store, false)
      else if deleted incoming then (store.delete id, true)
      else (store.set id incoming, true)
  | _, _ => (store, false)

/-- `applyModels`: the store, and the models that were applied. -/
def applyModels (versionOf : M → Option ℚ) (store : Dict JSString M) :
    List M → Dict JSString M × List M
  | [] => (store, [])
  | model :: rest =>
    let (store, applied) := applyOne versionOf store model
    let (store, changed) := applyModels versionOf store rest
    (store, if applied then model :: changed else changed)

/-! ## Events -/

/-- `emitChange` up to its listeners. -/
def emitChange (h : ModelSyncHandle M) (cause : Cause) (models : List M) : ModelSyncHandle M :=
  { h with changes := ⟨cause, models⟩ :: h.changes }

/-- `applyEvent`, given what `parseEvent` returns. -/
def applyEvent (h : ModelSyncHandle M) (models : Option (List M)) : ModelSyncHandle M :=
  if h.closed then h
  else
    match models with
    | none => h
    | some models =>
      let (store, changed) := applyModels h.versionOf h.store models
      if changed = [] then { h with store := store }
      else { h with store := store }.emitChange .event changed

/-! ## Pulling -/

/-- `this.watermark || undefined`. -/
def since (h : ModelSyncHandle M) : Option ℚ := if h.watermark = 0 then none else some h.watermark

/-- `pull` up to its first request; a pull in flight is joined. -/
def pull (h : ModelSyncHandle M) : ModelSyncHandle M :=
  if h.closed ∨ h.pulling.isSome then h
  else { h with pulling := some ⟨h.since, [], .requesting⟩ }

/-- The end of the loop's body. -/
def nextPage (h : ModelSyncHandle M) (p : Pull M) (next : Bool) : ModelSyncHandle M :=
  if next then { h with pulling := some { p with phase := .requesting } }
  else { h with pulling := none, pulls := some p.applied :: h.pulls }

/-- `doPull` rejects. -/
def reject (h : ModelSyncHandle M) : ModelSyncHandle M :=
  { h with pulling := none, pulls := none :: h.pulls }

/-- The listeners of a page, one after the other. -/
def tellRest (h : ModelSyncHandle M) (p : Pull M) (next : Bool) : List Nat → ModelSyncHandle M
  | [] => h.nextPage p next
  | listeners => { h with pulling := some { p with phase := .telling listeners next } }

def raise (versionOf : M → Option ℚ) (watermark : ℚ) (applied : List M) : ℚ :=
  applied.foldl (fun w m => max w ((versionOf m).getD 0)) watermark

/-- The body of the loop in `doPull`, once its reply is parsed. -/
def acceptPage (h : ModelSyncHandle M) (p : Pull M) (models : List M) (next : Bool) :
    ModelSyncHandle M :=
  let (store, appliedPage) := applyModels h.versionOf h.store models
  let p := { p with applied := p.applied ++ appliedPage }
  let h := { h with store := store, watermark := raise h.versionOf h.watermark appliedPage }
  if appliedPage = [] then h.nextPage p next
  else (h.emitChange .pull appliedPage).tellRest p next h.changeListeners

def onChange (h : ModelSyncHandle M) (listener : Nat) : ModelSyncHandle M :=
  if listener ∈ h.changeListeners then h
  else { h with changeListeners := h.changeListeners ++ [listener] }

def unsubscribe (h : ModelSyncHandle M) (listener : Nat) : ModelSyncHandle M :=
  { h with changeListeners := h.changeListeners.filter (· ≠ listener) }

def close (h : ModelSyncHandle M) : ModelSyncHandle M :=
  if h.closed then h else { h with closed := true, changeListeners := [] }

end ModelSyncHandle

/-! ## What can happen to a handle -/

inductive HandleEvent (M : Type) where
  /-- the machine passes a message on; `none` where the type does not own it -/
  | event (models : Option (List M))
  | pull
  /-- the reply to the request that is out -/
  | page (models : List M) (next : Bool)
  /-- the request rejects, or the adapter throws -/
  | fail
  /-- the listener that is being told returns, or throws -/
  | told (ok : Bool)
  | onChange (listener : Nat)
  | unsubscribe (listener : Nat)
  | close

namespace ModelSyncHandle

/-- One event; `none` where it cannot happen. -/
def step (h : ModelSyncHandle M) : HandleEvent M → Option (ModelSyncHandle M)
  | .event models => some (h.applyEvent models)
  | .pull => some h.pull
  | .page models next =>
    match h.pulling with
    | some p => if p.phase = .requesting then some (h.acceptPage p models next) else none
    | none => none
  | .fail =>
    match h.pulling with
    | some p => if p.phase = .requesting then some h.reject else none
    | none => none
  | .told ok =>
    match h.pulling with
    | some p =>
      match p.phase with
      | .telling (_ :: rest) next => some (if ok then h.tellRest p next rest else h.reject)
      | _ => none
    | none => none
  | .onChange listener => some (h.onChange listener)
  | .unsubscribe listener => some (h.unsubscribe listener)
  | .close => some h.close

variable {h h' : ModelSyncHandle M}

theorem step_page {models : List M} {next : Bool} (hstep : h.step (.page models next) = some h') :
    ∃ p, h.pulling = some p ∧ p.phase = .requesting ∧ h' = h.acceptPage p models next := by
  simp only [step] at hstep
  split at hstep
  · rename_i p hp
    split at hstep
    · exact ⟨p, hp, by assumption, (Option.some.inj hstep).symm⟩
    · cases hstep
  · cases hstep

theorem step_fail (hstep : h.step .fail = some h') :
    ∃ p, h.pulling = some p ∧ p.phase = .requesting ∧ h' = h.reject := by
  simp only [step] at hstep
  split at hstep
  · rename_i p hp
    split at hstep
    · exact ⟨p, hp, by assumption, (Option.some.inj hstep).symm⟩
    · cases hstep
  · cases hstep

theorem step_told {ok : Bool} (hstep : h.step (.told ok) = some h') :
    ∃ p l rest next, h.pulling = some p ∧ p.phase = .telling (l :: rest) next ∧
      h' = if ok then h.tellRest p next rest else h.reject := by
  simp only [step] at hstep
  split at hstep
  · rename_i p hp
    split at hstep
    · exact ⟨p, _, _, _, hp, by assumption, (Option.some.inj hstep).symm⟩
    · cases hstep
  · cases hstep

/-! ## What an event does to each part -/

/-- The models an event brings. -/
def arriving (h : ModelSyncHandle M) : HandleEvent M → List M
  | .event (some models) => if h.closed then [] else models
  | .page models _ => models
  | _ => []

/-- The watermark after an event. -/
def raised (h : ModelSyncHandle M) : HandleEvent M → ℚ
  | .page models _ => raise h.versionOf h.watermark (applyModels h.versionOf h.store models).2
  | _ => h.watermark

/-- A step leaves all but the pull as it is. -/
structure PullOnly (h h' : ModelSyncHandle M) : Prop where
  versionOf : h'.versionOf = h.versionOf
  store : h'.store = h.store
  watermark : h'.watermark = h.watermark

omit [SyncTarget M] in
theorem nextPage_pullOnly (h : ModelSyncHandle M) (p : Pull M) (next : Bool) :
    PullOnly h (h.nextPage p next) := by
  unfold nextPage
  split <;> exact ⟨rfl, rfl, rfl⟩

omit [SyncTarget M] in
theorem tellRest_pullOnly (h : ModelSyncHandle M) (p : Pull M) (next : Bool)
    (listeners : List Nat) : PullOnly h (h.tellRest p next listeners) := by
  cases listeners with
  | nil => exact nextPage_pullOnly h p next
  | cons l rest => exact ⟨rfl, rfl, rfl⟩

theorem acceptPage_parts (h : ModelSyncHandle M) (p : Pull M) (models : List M) (next : Bool) :
    (h.acceptPage p models next).versionOf = h.versionOf ∧
      (h.acceptPage p models next).store = (applyModels h.versionOf h.store models).1 ∧
      (h.acceptPage p models next).watermark =
        raise h.versionOf h.watermark (applyModels h.versionOf h.store models).2 := by
  simp only [acceptPage]
  split
  · obtain ⟨versionOf, store, watermark⟩ := nextPage_pullOnly
      { h with
        store := (applyModels h.versionOf h.store models).1
        watermark := raise h.versionOf h.watermark (applyModels h.versionOf h.store models).2 }
      { p with applied := p.applied ++ (applyModels h.versionOf h.store models).2 } next
    exact ⟨versionOf, store, watermark⟩
  · obtain ⟨versionOf, store, watermark⟩ := tellRest_pullOnly
      (emitChange { h with
        store := (applyModels h.versionOf h.store models).1
        watermark := raise h.versionOf h.watermark (applyModels h.versionOf h.store models).2 }
        .pull (applyModels h.versionOf h.store models).2)
      { p with applied := p.applied ++ (applyModels h.versionOf h.store models).2 } next
      h.changeListeners
    exact ⟨versionOf, store, watermark⟩

/-- An event applies the models it brings, and a page alone raises the watermark. -/
theorem step_parts {e : HandleEvent M} (hstep : h.step e = some h') :
    h'.versionOf = h.versionOf ∧
      h'.store = (applyModels h.versionOf h.store (h.arriving e)).1 ∧
      h'.watermark = h.raised e := by
  cases e with
  | event models =>
    obtain rfl := Option.some.inj hstep
    unfold applyEvent
    split
    · rename_i closed
      cases models with
      | none => exact ⟨rfl, rfl, rfl⟩
      | some models => exact ⟨rfl, by rw [arriving, if_pos closed]; rfl, rfl⟩
    · rename_i isOpen
      cases models with
      | none => exact ⟨rfl, rfl, rfl⟩
      | some models =>
        rw [arriving, if_neg isOpen]
        simp only
        split <;> exact ⟨rfl, rfl, rfl⟩
  | page models next =>
    obtain ⟨p, -, -, rfl⟩ := step_page hstep
    exact acceptPage_parts h p models next
  | told ok =>
    obtain ⟨p, l, rest, next, -, -, rfl⟩ := step_told hstep
    cases ok with
    | false => exact ⟨rfl, rfl, rfl⟩
    | true =>
      obtain ⟨versionOf, store, watermark⟩ := tellRest_pullOnly h p next rest
      exact ⟨versionOf, store, watermark⟩
  | fail =>
    obtain ⟨p, -, -, rfl⟩ := step_fail hstep
    exact ⟨rfl, rfl, rfl⟩
  | pull =>
    obtain rfl := Option.some.inj hstep
    unfold ModelSyncHandle.pull
    split <;> exact ⟨rfl, rfl, rfl⟩
  | onChange l =>
    obtain rfl := Option.some.inj hstep
    unfold ModelSyncHandle.onChange
    split <;> exact ⟨rfl, rfl, rfl⟩
  | unsubscribe l =>
    obtain rfl := Option.some.inj hstep
    exact ⟨rfl, rfl, rfl⟩
  | close =>
    obtain rfl := Option.some.inj hstep
    unfold ModelSyncHandle.close
    split <;> exact ⟨rfl, rfl, rfl⟩

end ModelSyncHandle

end LemonModel
