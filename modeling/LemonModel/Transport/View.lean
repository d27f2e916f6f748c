import LemonModel.Transport.Machine

/-!
# One tid on the receive side

What a transport holds about a tid it receives, and what it did about it, as one
value, with what each method does to it. Work on one tid shows in another's view
only where the settled memory lets an entry go.
-/

namespace LemonModel

open Text

/-- The effects of receiving `tid`. -/
def Effect.about (tid : JSString) : Effect → Bool
  | .answered p => p.tid = tid
  | .assembled x _ _ => x = tid
  | .called x _ _ => x = tid
  | .returned x _ _ => x = tid
  | .threw x _ => x = tid
  | .error (some x) r => x = tid && r.scope ≠ .failed
  | .forgot x => x = tid
  | _ => false

/-- The effects of sending `tid`. -/
def Effect.outgoing (tid : JSString) : Effect → Bool
  | .started x _ => x = tid
  | .sent p => p.tid = tid
  | .settled x _ => x = tid
  | .resolved x => x = tid
  | .rejected x => x = tid
  | .error (some x) r => x = tid && r.scope = .failed
  | _ => false

/-- A frame of the receive side. -/
def Frame.incoming : Frame → Bool
  | .control => true
  | .emit _ _ _ _ => true
  | _ => false

structure View where
  state : Option JSONReceiveState
  memory : Option SettledEntry
  nack : Bool
  log : List Effect

namespace View

def record (v : View) (e : Effect) : View := { v with log := e :: v.log }

/-- The entry of `tid` is dropped from the settled memory. -/
def lose (v : View) (tid : JSString) : View :=
  { v with memory := none, log := .forgot tid :: v.log }

/-- Nothing happened, or a remembered tid was dropped. -/
inductive Lapse (tid : JSString) (v : View) : View → Prop where
  | keep : Lapse tid v v
  | lose : v.memory.isSome → Lapse tid v (v.lose tid)

theorem Lapse.trans {tid : JSString} {u v w : View} (h₁ : Lapse tid u v) (h₂ : Lapse tid v w) :
    Lapse tid u w := by
  cases h₁ with
  | keep => exact h₂
  | lose h =>
    cases h₂ with
    | keep => exact .lose h
    | lose h' => simp [View.lose] at h'

theorem Lapse.state_eq {tid : JSString} {v w : View} (h : Lapse tid v w) : w.state = v.state := by
  cases h <;> rfl

theorem Lapse.nack_eq {tid : JSString} {v w : View} (h : Lapse tid v w) : w.nack = v.nack := by
  cases h <;> rfl

end View

namespace Transport

def view (t : Transport) (tid : JSString) : View :=
  ⟨t.states.get? tid, t.settledReceived.get? tid, decide (tid ∈ t.nackTimers),
    t.log.filter (Effect.about tid)⟩

variable {t : Transport} {o : ReliableOptions} {tid x : JSString}

/-! ## Effects -/

theorem view_record (e : Effect) :
    (t.record e).view x = if e.about x then (t.view x).record e else t.view x := by
  by_cases h : e.about x
  · simp only [view, record, View.record, List.filter_cons, h, if_true]
    rfl
  · simp only [view, record, List.filter_cons, h]
    rfl

theorem view_record_other {e : Effect} (h : e.about x = false) :
    (t.record e).view x = t.view x := by
  simp [view_record, h]

/-! ## Settled memory -/

/-- `map` has some of the entries of `old`. -/
def Within (map old : Dict JSString SettledEntry) : Prop :=
  ∀ x e, map.get? x = some e → old.get? x = some e

theorem within_refl (map : Dict JSString SettledEntry) : Within map map := fun _ _ h => h

theorem within_delete {map old : Dict JSString SettledEntry} (h : Within map old) (k : JSString) :
    Within (map.delete k) old := by
  intro x e hx
  rw [Dict.get?_delete] at hx
  split at hx
  · cases hx
  · exact h x e hx

theorem within_evict (maxEntries now fuel : Nat) {map old : Dict JSString SettledEntry}
    (h : Within map old) : Within (evictSettled maxEntries now fuel map) old := by
  induction fuel generalizing map with
  | zero => exact h
  | succ fuel ih =>
    rw [evictSettled]
    split
    · exact h
    · split
      · exact h
      · exact ih (within_delete h _)

theorem within_sweepSize (map : Dict JSString SettledEntry) (maxEntries now : Nat) :
    Within (sweepSettledMapSize map maxEntries now) map :=
  within_evict _ _ _ (within_refl map)

theorem within_sweepTtl (map : Dict JSString SettledEntry) (now : Nat) :
    Within (sweepSettledMapTtl map now) map := by
  intro x e h
  rw [sweepSettledMapTtl, Dict.get?_filter, Option.filter_eq_some_iff] at h
  exact h.1

theorem filter_forgot (keys : List JSString) (x : JSString) (h : keys.Nodup) :
    (keys.map Effect.forgot).filter (Effect.about x) = if x ∈ keys then [.forgot x] else [] := by
  induction keys with
  | nil => rfl
  | cons k keys ih =>
    rw [List.nodup_cons] at h
    by_cases hk : k = x
    · subst hk
      have : ¬ k ∈ keys := h.1
      simp [Effect.about, ih h.2, this]
    · simp [Effect.about, hk, ih h.2, Ne.symm hk]

theorem view_forget {map : Dict JSString SettledEntry} (h : Within map t.settledReceived) :
    View.Lapse x (t.view x) ((t.forget map).view x) := by
  have keysNodup : (t.settledReceived.keys.filter fun k => !map.has k).Nodup :=
    t.settledReceived.nodup.filter _
  have log : ((t.forget map).view x).log =
      (if x ∈ t.settledReceived.keys ∧ map.get? x = none then [.forgot x] else []) ++
        (t.view x).log := by
    rw [view, forget, List.filter_append, filter_forgot _ _ keysNodup]
    simp only [List.mem_filter, Bool.not_eq_true', Dict.has_eq_false]
    rfl
  have same : ∀ m, ((t.forget map).view x).memory = m → ((t.forget map).view x) =
      ⟨(t.view x).state, m, (t.view x).nack, ((t.forget map).view x).log⟩ := by
    rintro m rfl
    rfl
  cases hm : map.get? x with
  | some e =>
    have hx : t.settledReceived.get? x = some e := h x e hm
    rw [same (some e) hm, log, if_neg (by simp [hm]), List.nil_append, ← hx]
    exact .keep
  | none =>
    cases hx : t.settledReceived.get? x with
    | none =>
      have hk : x ∉ t.settledReceived.keys := Dict.get?_eq_none.mp hx
      rw [same none hm, log, if_neg (by simp [hk]), List.nil_append, ← hx]
      exact .keep
    | some e =>
      have hk : x ∈ t.settledReceived.keys := Dict.mem_keys.mpr ⟨e, hx⟩
      rw [same none hm, log, if_pos ⟨hk, hm⟩]
      exact .lose (by rw [view, hx, Option.isSome_some])

/-- The view of `x` once `tid` is settled, before the cap is looked at. -/
def settledView (t : Transport) (o : ReliableOptions) (tid : JSString) (outcome : Outcome)
    (x : JSString) : View :=
  if x = tid then { t.view x with memory := some ⟨outcome, t.now + o.settledTtlMs⟩ } else t.view x

theorem view_settleReceived (o : ReliableOptions) (tid : JSString) (outcome : Outcome) :
    View.Lapse x (t.settledView o tid outcome x) ((t.settleReceived o tid outcome).view x) := by
  have set : { t with
      settledReceived := t.settledReceived.set tid ⟨outcome, t.now + o.settledTtlMs⟩ }.view x =
      t.settledView o tid outcome x := by
    by_cases h : x = tid
    · simp [settledView, view, h]
    · simp [settledView, view, h, Dict.get?_set_ne]
  rw [← set]
  exact view_forget (within_sweepSize _ _ _)

theorem view_sweepSettledMaps : View.Lapse x (t.view x) (t.sweepSettledMaps.view x) :=
  view_forget (t := { t with settledSend := sweepSettledMapTtl t.settledSend t.now })
    (within_sweepTtl _ _)

/-! ## Partial states -/

theorem view_clearNackTimer (tid : JSString) :
    (t.clearNackTimer tid).view x =
      { t.view x with nack := decide (x ≠ tid) && (t.view x).nack } := by
  simp [view, clearNackTimer, and_comm]

theorem view_scheduleNack :
    (t.scheduleNack tid).view x =
      { t.view x with nack := (decide (x = tid) && t.reliable.isSome) || (t.view x).nack } := by
  by_cases hr : t.reliable.isSome
  · by_cases h : x = tid <;> simp [view, scheduleNack, h, hr]
  · simp [view, scheduleNack, hr]

theorem view_setState (state : JSONReceiveState) :
    (t.setState tid state).view x =
      { t.view x with state := if x = tid then some state else (t.view x).state } := by
  simp only [view, setState, Dict.get?_set]
  rfl

theorem view_deleteState :
    (t.deleteState tid).view x =
      { t.view x with state := if x = tid then none else (t.view x).state } := by
  simp only [view, deleteState, Dict.get?_delete]
  rfl

/-! ## What receiving leaves alone -/

/-- `t'` is `t` after some receiving: the options, the clock and everything a
send needs are as they were. -/
structure Receives (t t' : Transport) : Prop where
  options : t'.options = t.options
  partialTtlMs : t'.partialTtlMs = t.partialTtlMs
  reliable : t'.reliable = t.reliable
  listeners : t'.listeners = t.listeners
  pendingSend : t'.pendingSend = t.pendingSend
  settledSend : Within t'.settledSend t.settledSend
  resendTimers : t'.resendTimers = t.resendTimers
  nextTimer : t'.nextTimer = t.nextTimer
  attached : t'.attached = t.attached
  isOpen : t'.isOpen = t.isOpen
  now : t'.now = t.now
  outgoing : ∀ x, t'.log.filter (Effect.outgoing x) = t.log.filter (Effect.outgoing x)

theorem Receives.refl (t : Transport) : Receives t t :=
  ⟨rfl, rfl, rfl, rfl, rfl, within_refl _, rfl, rfl, rfl, rfl, rfl, fun _ => rfl⟩

theorem Receives.trans {a b c : Transport} (h₁ : Receives a b) (h₂ : Receives b c) :
    Receives a c :=
  ⟨h₂.options.trans h₁.options, h₂.partialTtlMs.trans h₁.partialTtlMs,
    h₂.reliable.trans h₁.reliable, h₂.listeners.trans h₁.listeners,
    h₂.pendingSend.trans h₁.pendingSend,
    fun x e h => h₁.settledSend x e (h₂.settledSend x e h),
    h₂.resendTimers.trans h₁.resendTimers, h₂.nextTimer.trans h₁.nextTimer,
    h₂.attached.trans h₁.attached, h₂.isOpen.trans h₁.isOpen, h₂.now.trans h₁.now,
    fun x => (h₂.outgoing x).trans (h₁.outgoing x)⟩

theorem receives_record {e : Effect} (h : ∀ x, e.outgoing x = false) : Receives t (t.record e) :=
  ⟨rfl, rfl, rfl, rfl, rfl, within_refl _, rfl, rfl, rfl, rfl, rfl, fun x => by
    simp [record, h x]⟩

theorem receives_forget (map : Dict JSString SettledEntry) : Receives t (t.forget map) :=
  ⟨rfl, rfl, rfl, rfl, rfl, within_refl _, rfl, rfl, rfl, rfl, rfl, fun x => by
    simp [forget, List.filter_append, List.filter_map, Function.comp_def, Effect.outgoing]⟩

theorem receives_settleReceived (o : ReliableOptions) (tid : JSString) (outcome : Outcome) :
    Receives t (t.settleReceived o tid outcome) := by
  have set : Receives t { t with
      settledReceived := t.settledReceived.set tid ⟨outcome, t.now + o.settledTtlMs⟩ } :=
    ⟨rfl, rfl, rfl, rfl, rfl, within_refl _, rfl, rfl, rfl, rfl, rfl, fun _ => rfl⟩
  exact set.trans (receives_forget _)

theorem receives_sweepSettledMaps : Receives t t.sweepSettledMaps := by
  have set : Receives t { t with settledSend := sweepSettledMapTtl t.settledSend t.now } :=
    { Receives.refl t with settledSend := within_sweepTtl _ _ }
  exact set.trans (receives_forget _)

theorem receives_deleteState : Receives t (t.deleteState tid) :=
  ⟨rfl, rfl, rfl, rfl, rfl, within_refl _, rfl, rfl, rfl, rfl, rfl, fun _ => rfl⟩

theorem receives_setState (tid : JSString) (state : JSONReceiveState) :
    Receives t (t.setState tid state) :=
  ⟨rfl, rfl, rfl, rfl, rfl, within_refl _, rfl, rfl, rfl, rfl, rfl, fun _ => rfl⟩

theorem receives_clearNackTimer : Receives t (t.clearNackTimer tid) :=
  ⟨rfl, rfl, rfl, rfl, rfl, within_refl _, rfl, rfl, rfl, rfl, rfl, fun _ => rfl⟩

theorem receives_scheduleNack : Receives t (t.scheduleNack tid) := by
  unfold scheduleNack
  split
  · exact ⟨rfl, rfl, rfl, rfl, rfl, within_refl _, rfl, rfl, rfl, rfl, rfl, fun _ => rfl⟩
  · exact .refl t

theorem receives_emitError (tid : Option JSString) {r : Report} (h : r.scope ≠ .failed) :
    Receives t (t.emitError tid r) := by
  apply receives_record
  intro x
  cases tid <;> simp [Effect.outgoing, h]

theorem receives_expirePartial (tid : JSString) : Receives t (t.expirePartial tid) := by
  have scope : (expiredReport tid).scope ≠ .failed := by simp [expiredReport, report]
  unfold expirePartial
  split
  · exact receives_deleteState.trans (receives_emitError _ scope)
  · exact ((receives_deleteState.trans receives_clearNackTimer).trans
      (receives_settleReceived _ _ _)).trans (receives_emitError _ scope)

theorem receives_foldl {α : Type} {f : Transport → α → Transport} {l : List α}
    (h : ∀ a ∈ l, ∀ t, Receives t (f t a)) : Receives t (l.foldl f t) := by
  induction l generalizing t with
  | nil => exact Receives.refl t
  | cons a l ih =>
    exact (h a List.mem_cons_self t).trans (ih fun b hb => h b (List.mem_cons_of_mem _ hb))

theorem receives_sweep : Receives t t.sweep := by
  unfold sweep
  split
  · exact receives_sweepSettledMaps
  · exact .refl t

theorem receives_cleanup : Receives t t.cleanup :=
  receives_sweep.trans (receives_foldl fun tid _ _ => receives_expirePartial tid)

theorem receives_getState (t : Transport) (tid : JSString) :
    Receives t ((t.getState tid).1.scheduleNack tid) :=
  (receives_cleanup.trans (receives_setState _ _)).trans receives_scheduleNack

theorem receives_emitErrors (tid : JSString) {reports : List Report}
    (h : ∀ r ∈ reports, r.scope ∈ complaints) :
    Receives t (t.emitErrors tid reports) := by
  apply receives_foldl
  intro r hr t
  apply receives_emitError
  intro hf
  have := h r hr
  rw [hf] at this
  revert this
  decide

/-- The outcome of a receive-side method: its frame waits for a listener, or for
an ack or a nack to go out. -/
structure ReceivesTo (t : Transport) (r : Transport × Option Frame) : Prop where
  receives : Receives t r.1
  incoming : ∀ f ∈ r.2, f.incoming = true

theorem ReceivesTo.done {t' : Transport} (h : Receives t t') : ReceivesTo t (t', none) :=
  ⟨h, by simp⟩

theorem ReceivesTo.after {t₁ : Transport} {r : Transport × Option Frame} (h₁ : Receives t t₁)
    (h₂ : ReceivesTo t₁ r) : ReceivesTo t r :=
  ⟨h₁.trans h₂.receives, h₂.incoming⟩

theorem receivesTo_sendAck (tid : JSString) : ReceivesTo t (t.sendAck tid) :=
  ⟨receives_record fun _ => rfl, by rintro f ⟨⟩; rfl⟩

theorem receivesTo_emitRest (tid : JSString) (data : Json) (rest : List Nat) :
    ReceivesTo t (t.emitRest tid data rest) := by
  cases rest with
  | cons listener rest => exact ⟨receives_record fun _ => rfl, by rintro f ⟨⟩; rfl⟩
  | nil =>
    simp only [emitRest, emitEnd]
    split
    · apply ReceivesTo.after _ (receivesTo_sendAck tid)
      exact receives_clearNackTimer.trans (receives_settleReceived _ _ _)
    · exact .done (.refl t)

theorem receivesTo_acceptPart (packet : JSONTransportPacket) :
    ReceivesTo t (t.acceptPart packet) := by
  have scopes := absorb_scope (t.getState packet.tid).1.reliable.isSome
    (t.getState packet.tid).1.now (t.getState packet.tid).2 packet
  apply ReceivesTo.after (receives_getState t packet.tid)
  simp only [acceptPart, acceptRest]
  generalize absorb _ _ _ packet = r at scopes ⊢
  have errors : Receives ((t.getState packet.tid).1.scheduleNack packet.tid) _ :=
    (receives_setState packet.tid r.1).trans (receives_emitErrors packet.tid scopes)
  split
  · exact .done errors
  · apply ReceivesTo.after errors
    apply ReceivesTo.after _ (receivesTo_emitRest _ _ _)
    exact receives_deleteState.trans (receives_record fun _ => rfl)

theorem receives_acceptError (tid message : JSString) : Receives t (t.acceptError tid message) := by
  have error := receives_emitError (t := t) (some tid) (r := ⟨.error, message⟩) (by simp)
  simp only [acceptError]
  split
  · exact error
  · exact ((error.trans receives_deleteState).trans receives_clearNackTimer).trans
      (receives_settleReceived _ _ _)

theorem receivesTo_fireNack (tid : JSString) : ReceivesTo t (t.fireNack tid) := by
  simp only [fireNack]
  split
  · exact .done receives_clearNackTimer
  · split
    · exact .done receives_clearNackTimer
    · exact ⟨receives_clearNackTimer.trans (receives_record fun _ => rfl), by rintro f ⟨⟩; rfl⟩

theorem receivesTo_resume {f : Frame} (h : f.incoming = true) (ok : Bool) :
    ReceivesTo t (t.resume ok f) := by
  cases f with
  | emit tid data listener rest =>
    cases ok with
    | true => exact .after (receives_record fun _ => rfl) (receivesTo_emitRest _ _ _)
    | false =>
      exact .done ((receives_record fun _ => rfl).trans (receives_emitError _ (by simp)))
  | control => exact .done (.refl t)
  | attempt => cases h
  | fail => cases h
  | resend => cases h
  | plain => cases h

/-! ## Cleaning up -/

theorem view_expirePartial_other (h : x ≠ tid) :
    View.Lapse x (t.view x) ((t.expirePartial tid).view x) := by
  have quiet : Effect.about x (.error (some tid) (expiredReport tid)) = false := by
    simp [Effect.about, Ne.symm h]
  unfold expirePartial emitError
  split
  · rw [view_record_other quiet, view_deleteState, if_neg h]
    exact .keep
  · rename_i o _
    have lapse := view_settleReceived (x := x) (t := (t.deleteState tid).clearNackTimer tid) o tid .fail
    rw [settledView, if_neg h, view_clearNackTimer, view_deleteState, if_neg h] at lapse
    rw [view_record_other quiet]
    simpa [h] using lapse

/-- The view of a tid whose partial expired, before the cap is looked at. -/
def expiredView (t : Transport) (o : ReliableOptions) (v : View) : View :=
  ⟨none, some ⟨.fail, t.now + o.settledTtlMs⟩, false, v.log⟩

theorem view_settle_self (tid : JSString) (o : ReliableOptions) (outcome : Outcome) :
    View.Lapse tid ⟨none, some ⟨outcome, t.now + o.settledTtlMs⟩, false, (t.view tid).log⟩
      ((((t.deleteState tid).clearNackTimer tid).settleReceived o tid outcome).view tid) := by
  have lapse := view_settleReceived (x := tid) (t := (t.deleteState tid).clearNackTimer tid) o tid
    outcome
  rw [settledView, if_pos rfl, view_clearNackTimer, view_deleteState, if_pos rfl] at lapse
  simp only [ne_eq, not_true_eq_false, decide_false, Bool.false_and] at lapse
  exact lapse

theorem view_expirePartial_self (tid : JSString) (hr : t.reliable = some o) :
    ∃ w, View.Lapse tid (t.expiredView o (t.view tid)) w ∧
      (t.expirePartial tid).view tid = w.record (.error (some tid) (expiredReport tid)) := by
  refine ⟨_, view_settle_self tid o .fail, ?_⟩
  have loud : Effect.about tid (.error (some tid) (expiredReport tid)) = true := by
    simp +decide [Effect.about, expiredReport, report]
  simp only [expirePartial, hr, emitError]
  rw [view_record, if_pos loud]

theorem view_expire_live {tids : List JSString} (h : x ∉ tids) :
    View.Lapse x (t.view x) ((tids.foldl expirePartial t).view x) := by
  induction tids generalizing t with
  | nil => exact .keep
  | cons tid tids ih =>
    rw [List.mem_cons, not_or] at h
    exact (view_expirePartial_other h.1).trans (ih h.2)

theorem expiredPartials_nodup (t : Transport) : t.expiredPartials.Nodup := by
  unfold expiredPartials
  split
  · exact .nil
  · exact t.states.nodup.sublist (List.filter_sublist.map _)

theorem mem_expiredPartials :
    x ∈ t.expiredPartials ↔ t.partialTtlMs ≠ 0 ∧
      ∃ state, t.states.get? x = some state ∧ t.partialTtlMs < t.now - state.updatedAt := by
  unfold expiredPartials
  split
  · rename_i h
    simp [h]
  · rename_i h
    simp only [List.mem_map, List.mem_filter, decide_eq_true_eq, Prod.exists, exists_and_right,
      exists_eq_right, ne_eq, h, not_false_eq_true, true_and, Dict.get?_eq_some]

theorem view_sweep : View.Lapse x (t.view x) (t.sweep.view x) := by
  unfold sweep
  split
  · exact view_sweepSettledMaps
  · exact .keep

/-- Cleaning up passes by a tid whose own partial has not expired. -/
theorem view_cleanup_live (h : x ∉ t.expiredPartials) :
    View.Lapse x (t.view x) (t.cleanup.view x) :=
  view_sweep.trans (view_expire_live h)

theorem view_expire_self {tids : List JSString} (hr : t.reliable = some o) (h : x ∈ tids)
    (nodup : tids.Nodup) :
    ∃ v w, View.Lapse x (t.view x) v ∧ View.Lapse x (t.expiredView o v) w ∧
      View.Lapse x (w.record (.error (some x) (expiredReport x)))
        ((tids.foldl expirePartial t).view x) := by
  induction tids generalizing t with
  | nil => cases h
  | cons tid tids ih =>
    rw [List.nodup_cons] at nodup
    by_cases hx : x = tid
    · subst hx
      obtain ⟨w, hw, eq⟩ := view_expirePartial_self x hr
      refine ⟨_, w, .keep, hw, ?_⟩
      rw [← eq]
      exact view_expire_live nodup.1
    · have fixed := receives_expirePartial (t := t) tid
      obtain ⟨v, w, hv, hw, hrest⟩ := ih (fixed.reliable.trans hr)
        (by simpa [hx] using h) nodup.2
      refine ⟨v, w, (view_expirePartial_other hx).trans hv, ?_, hrest⟩
      rwa [expiredView, fixed.now] at hw

/-- Cleaning up settles a tid whose partial has expired, and says so once. -/
theorem view_cleanup_expired (hr : t.reliable = some o) (h : x ∈ t.expiredPartials) :
    ∃ v w, View.Lapse x (t.view x) v ∧ View.Lapse x (t.expiredView o v) w ∧
      View.Lapse x (w.record (.error (some x) (expiredReport x))) (t.cleanup.view x) := by
  have fixed := receives_sweep (t := t)
  obtain ⟨v, w, hv, hw, hrest⟩ :=
    view_expire_self (fixed.reliable.trans hr) h (expiredPartials_nodup t)
  refine ⟨v, w, view_sweep.trans hv, ?_, hrest⟩
  rwa [expiredView, fixed.now] at hw

end Transport

end LemonModel
