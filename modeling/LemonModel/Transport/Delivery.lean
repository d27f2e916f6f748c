import LemonModel.Transport.Once

/-!
# A packet handled to its end

`Transport.deliver` with every call returning at once, in either mode, seen from
one tid. A packet of another tid only lets the settled memory drop an entry
(`deliver_other`). A packet of the tid itself does what `View.deliver` says, up
to the same loss (`deliver_self`).
-/

namespace LemonModel

open Text

/-! ## What a packet does to its own tid -/

namespace View

/-- Every listener is called and returns. -/
def heard (v : View) (tid : JSString) (data : Json) (listeners : List Nat) : View :=
  listeners.foldl (fun v l => (v.record (.called tid data l)).record (.returned tid data l)) v

/-- The end of `acceptPacket` after the listener loop. -/
def acknowledged (v : View) (mode : Option ReliableOptions) (now : Nat) (tid : JSString) : View :=
  match mode with
  | none => v
  | some o =>
    { v with memory := some ⟨.ok, now + o.settledTtlMs⟩, nack := false }.record
      (.answered (.ack tid))

/-- The state is open and the nack timer set. -/
def awaiting (v : View) (mode : Option ReliableOptions) (tid : JSString) (s : JSONReceiveState)
    (reports : List Report) : View :=
  { v.complain tid reports with state := some s, nack := mode.isSome || v.nack }

/-- `acceptPart`. -/
def accept (v : View) (mode : Option ReliableOptions) (now : Nat) (listeners : List Nat)
    (tid : JSString) (p : JSONTransportPacket) : View :=
  match absorb mode.isSome now (v.opened tid now) p with
  | (s, reports, none) => v.awaiting mode tid s reports
  | (s, reports, some data) =>
    (({ v.awaiting mode tid s reports with state := none }.record
      (.assembled tid data listeners)).heard tid data listeners).acknowledged mode now tid

/-- A `json:error`. -/
def failed (v : View) (mode : Option ReliableOptions) (now : Nat) (tid message : JSString) : View :=
  match mode with
  | none => v.record (.error (some tid) ⟨.error, message⟩)
  | some o =>
    ⟨none, some ⟨.fail, now + o.settledTtlMs⟩, false,
      .error (some tid) ⟨.error, message⟩ :: v.log⟩

def mismatch (p : JSONTransportPacket) : Report :=
  report .mismatch (lit "@packet[" ++ p.type ++ lit "] requires reliable mode")

/-- The nack timer fires. -/
def fireNack (v : View) : View :=
  match v.state with
  | none => { v with nack := false }
  | some s =>
    if s.emitted then { v with nack := false }
    else { v with nack := false }.record (.answered (.nack (Transport.buildNackPacket s)))

/-- A packet of `tid`. -/
def deliver (v : View) (mode : Option ReliableOptions) (now : Nat) (listeners : List Nat)
    (tid : JSString) (p : JSONTransportPacket) : View :=
  match mode, p with
  | _, .error _ message => v.failed mode now tid message
  | some _, .ack _ => v
  | some _, .nack _ => v
  | none, .ack _ => v.record (.error (some tid) (mismatch p))
  | none, .nack _ => v.record (.error (some tid) (mismatch p))
  | none, p => v.accept none now listeners tid p
  | some o, p =>
    match v.memory with
    | some entry => if entry.outcome = .ok then v.record (.answered (.ack tid)) else v
    | none => v.accept (some o) now listeners tid p

theorem deliver_data {p : JSONTransportPacket} (h : p.isData) (v : View)
    (mode : Option ReliableOptions) (now : Nat) (listeners : List Nat) (tid : JSString) :
    v.deliver mode now listeners tid p =
      match mode, v.memory with
      | some _, some entry => if entry.outcome = .ok then v.record (.answered (.ack tid)) else v
      | _, _ => v.accept mode now listeners tid p := by
  cases mode <;> cases hm : v.memory <;> cases p <;>
    first
      | (simp only [deliver, hm]; done)
      | cases h

/-- `w` is `v`, or `tid` was to be remembered and was dropped at once, for the
reason `cause`. -/
def Drift (cause : Prop) (tid : JSString) (v w : View) : Prop :=
  w = v ∨ (v.memory.isSome ∧ wasForgotten tid w.log = true ∧ cause)

end View

variable {o : ReliableOptions} {x tid : JSString}

namespace Transport

variable {t : Transport}

/-! ## Calls that return -/

theorem settle_none (n : Nat) (t : Transport) : settle n (t, none) = (t, none) := by
  cases n <;> rfl

theorem complete_none (t : Transport) : complete (t, none) = t := by
  rw [complete, settle_none]

theorem complete_control (t : Transport) : complete (t, some .control) = t := rfl

/-- The listeners called, one after the other. -/
def heardBy (t : Transport) (tid : JSString) (data : Json) (listeners : List Nat) : Transport :=
  listeners.foldl (fun t l => (t.record (.called tid data l)).record (.returned tid data l)) t

/-- The end of `acceptPacket`, its ack sent. -/
def acknowledged (t : Transport) (tid : JSString) : Transport :=
  match t.reliable with
  | none => t
  | some o => ((t.clearNackTimer tid).settleReceived o tid .ok).record (.answered (.ack tid))

theorem settle_emitEnd (n : Nat) (t : Transport) (tid : JSString) :
    (settle (n + 1) (t.emitEnd tid)).1 = t.acknowledged tid := by
  unfold emitEnd acknowledged
  cases t.reliable with
  | none => rw [settle_none]
  | some o =>
    simp only [sendAck, settle, resume, settle_none]

theorem settle_emitRest (t : Transport) (tid : JSString) (data : Json) (listeners : List Nat) :
    (settle (listeners.length + 1) (t.emitRest tid data listeners)).1 =
      (t.heardBy tid data listeners).acknowledged tid := by
  induction listeners generalizing t with
  | nil => exact settle_emitEnd 0 t tid
  | cons l ls ih => exact ih ((t.record (.called tid data l)).record (.returned tid data l))

theorem complete_emitRest (t : Transport) (tid : JSString) (data : Json) (listeners : List Nat) :
    complete (t.emitRest tid data listeners) = (t.heardBy tid data listeners).acknowledged tid := by
  rw [← settle_emitRest]
  cases listeners with
  | nil =>
    rw [emitRest, emitEnd]
    cases t.reliable with
    | none => simp [complete, settle_none]
    | some o => rfl
  | cons l ls => rfl

theorem complete_acceptRest (t : Transport) (tid : JSString) (s : JSONReceiveState)
    (reports : List Report) (data : Option Json) :
    complete (t.acceptRest tid (s, reports, data)) =
      match data with
      | none => (t.setState tid s).emitErrors tid reports
      | some data =>
        ((((((t.setState tid s).emitErrors tid reports).deleteState tid).record
          (.assembled tid data ((t.setState tid s).emitErrors tid reports).listeners)).heardBy tid data
            ((t.setState tid s).emitErrors tid reports).listeners).acknowledged tid) := by
  cases data with
  | none => rw [acceptRest, complete_none]
  | some data => exact complete_emitRest _ _ _ _

theorem settle_resendRest (t : Transport) (packets : List JSONTransportPacket) :
    (settle packets.length (t.resendRest packets)).1 = packets.foldl networkSend t := by
  induction packets generalizing t with
  | nil => rfl
  | cons p rest ih => exact ih (t.networkSend p)

theorem complete_resendRest (t : Transport) (packets : List JSONTransportPacket) :
    complete (t.resendRest packets) = packets.foldl networkSend t := by
  rw [← settle_resendRest]
  cases packets <;> rfl

theorem sends_foldl_networkSend (t : Transport) (packets : List JSONTransportPacket) :
    Sends t (packets.foldl networkSend t) := by
  induction packets generalizing t with
  | nil => exact .refl t
  | cons p rest ih => exact (sends_networkSend p).trans (ih _)

theorem complete_handleNack (t : Transport) (nack : JSONNackPacket) :
    complete (t.handleNack nack) =
      match t.pendingSend.get? nack.tid with
      | none => t
      | some pending => (nackAnswer pending nack).foldl networkSend t := by
  unfold handleNack
  cases t.pendingSend.get? nack.tid with
  | none => exact complete_none t
  | some pending => exact complete_resendRest t _

theorem sends_handleNack (t : Transport) (nack : JSONNackPacket) :
    Sends t (complete (t.handleNack nack)) := by
  rw [complete_handleNack]
  split
  · exact .refl t
  · exact sends_foldl_networkSend t _

/-! ## Reading a packet -/

theorem receive_unread {text : JSString} (h : readPacket text = none) (t : Transport) :
    ∃ r, t.receive text = (t.emitError none r, none) := by
  unfold readPacket at h
  cases hp : parse text with
  | none => exact ⟨⟨.parse, []⟩, by simp only [receive, hp]⟩
  | some j =>
    rw [hp, Option.bind_some] at h
    exact ⟨report .packet (lit "@packet is invalid"), by simp only [receive, hp, h]⟩

theorem receive_read {text : JSString} {p : JSONTransportPacket} (h : readPacket text = some p)
    (t : Transport) :
    t.receive text =
      if t.reliable.isNone ∧ isControl p then (t.emitError (some p.tid) (View.mismatch p), none)
      else t.acceptPacket p := by
  obtain ⟨j, hj, hp⟩ := Option.bind_eq_some_iff.mp h
  simp only [receive, hj, hp]
  rfl

/-! ## Another tid -/

theorem view_heardBy_other (h : x ≠ tid) (data : Json) (listeners : List Nat) :
    (t.heardBy tid data listeners).view x = t.view x := by
  induction listeners generalizing t with
  | nil => rfl
  | cons l ls ih =>
    have called : Effect.about x (.called tid data l) = false := by simp [Effect.about, Ne.symm h]
    have returned : Effect.about x (.returned tid data l) = false := by
      simp [Effect.about, Ne.symm h]
    rw [heardBy, List.foldl_cons, ← heardBy, ih, view_record_other returned,
      view_record_other called]

theorem acknowledged_other (h : x ≠ tid) : View.Lapse x (t.view x) ((t.acknowledged tid).view x) := by
  unfold acknowledged
  cases t.reliable with
  | none => exact .keep
  | some o =>
    have quiet : Effect.about x (.answered (.ack tid)) = false := decide_eq_false (Ne.symm h)
    have lapse := view_settleReceived (x := x) (t := t.clearNackTimer tid) o tid .ok
    rw [settledView, if_neg h, view_clearNackTimer] at lapse
    simp only
    rw [view_record_other quiet]
    simpa [h] using lapse

theorem acceptPart_eq (t : Transport) (p : JSONTransportPacket) :
    t.acceptPart p = ((t.getState p.tid).1.scheduleNack p.tid).acceptRest p.tid
      (absorb t.reliable.isSome t.now (t.cleanup.openState p.tid) p) := by
  have cleanup := receives_cleanup (t := t)
  simp only [acceptPart, getState, setState, cleanup.reliable, cleanup.now]

theorem acceptPart_live {p : JSONTransportPacket} (h : x ≠ p.tid) (live : x ∉ t.expiredPartials) :
    View.Lapse x (t.view x) ((complete (t.acceptPart p)).view x) := by
  have opened : ((t.getState p.tid).1.scheduleNack p.tid).view x = t.cleanup.view x := by
    rw [view_scheduleNack, getState, view_setState]
    simp [h]
  have scopes := absorb_scope t.reliable.isSome t.now (t.cleanup.openState p.tid) p
  have cleaned := view_cleanup_live live
  rw [acceptPart_eq]
  generalize (t.getState p.tid).1.scheduleNack p.tid = u at opened
  generalize absorb t.reliable.isSome t.now (t.cleanup.openState p.tid) p = r at scopes
  obtain ⟨s, reports, data⟩ := r
  have errors : ((u.setState p.tid s).emitErrors p.tid reports).view x = t.cleanup.view x := by
    rw [view_emitErrors scopes, if_neg h, view_setState, if_neg h, opened]
  rw [complete_acceptRest]
  cases data with
  | none =>
    simp only
    rw [errors]
    exact cleaned
  | some data =>
    have quiet : ∀ ls, Effect.about x (.assembled p.tid data ls) = false := by
      intro ls
      simp [Effect.about, Ne.symm h]
    refine cleaned.trans ?_
    rw [← errors]
    have rest := acknowledged_other (x := x)
      (t := ((((u.setState p.tid s).emitErrors p.tid reports).deleteState p.tid).record
        (.assembled p.tid data ((u.setState p.tid s).emitErrors p.tid reports).listeners)).heardBy
          p.tid data ((u.setState p.tid s).emitErrors p.tid reports).listeners) h
    rw [view_heardBy_other h, view_record_other (quiet _), view_deleteState, if_neg h] at rest
    exact rest

theorem acceptError_other (h : x ≠ tid) (message : JSString) :
    View.Lapse x (t.view x) ((t.acceptError tid message).view x) := by
  have quiet : Effect.about x (.error (some tid) ⟨.error, message⟩) = false := by
    simp [Effect.about, Ne.symm h]
  have same : (t.emitError (some tid) ⟨.error, message⟩).view x = t.view x := view_record_other quiet
  simp only [acceptError]
  split
  · rw [same]
    exact .keep
  · rename_i o _
    have lapse := view_settleReceived (x := x)
      (t := ((t.emitError (some tid) ⟨.error, message⟩).deleteState tid).clearNackTimer tid) o tid .fail
    rw [settledView, if_neg h, view_clearNackTimer, view_deleteState, if_neg h, same] at lapse
    simpa [h] using lapse

/-- **A packet of another tid.** -/
theorem deliver_other {text : JSString} (h : ∀ p ∈ readPacket text, p.tid ≠ x)
    (live : x ∉ t.expiredPartials) : View.Lapse x (t.view x) ((t.deliver text).view x) := by
  rw [deliver]
  cases hp : readPacket text with
  | none =>
    obtain ⟨r, eq⟩ := receive_unread hp t
    rw [eq, complete_none, emitError, view_record_other rfl]
    exact .keep
  | some p =>
    have other : x ≠ p.tid := Ne.symm (h p hp)
    rw [receive_read hp]
    split
    · have quiet : Effect.about x (.error (some p.tid) (View.mismatch p)) = false := by
        simp [Effect.about, Ne.symm other]
      rw [complete_none, emitError, view_record_other quiet]
      exact .keep
    · rename_i hc
      cases hd : p.isData with
      | true =>
        rw [acceptPacket_data hd]
        split
        · rename_i entry _ _
          split
          · have quiet : Effect.about x (.answered (.ack p.tid)) = false :=
              decide_eq_false (Ne.symm other)
            rw [sendAck, complete_control, view_record_other quiet]
            exact .keep
          · rw [complete_none]
            exact .keep
        · exact acceptPart_live other live
      | false =>
        cases p with
        | error tid message =>
          rw [acceptPacket_error, complete_none]
          exact acceptError_other other message
        | ack tid =>
          cases hr : t.reliable with
          | none => simp [hr, isControl] at hc
          | some o =>
            simp only [acceptPacket, hr, complete_none]
            rw [sends_handleAck.view x]
            exact .keep
        | nack nack =>
          cases hr : t.reliable with
          | none => simp [hr, isControl] at hc
          | some o =>
            simp only [acceptPacket, hr]
            rw [(sends_handleNack t nack).view x]
            exact .keep
        | manifest m => cases hd
        | chunk c => cases hd
        | complete tid => cases hd

/-! ## The tid itself -/

/-- The settled memory has room for `tid`, and remembers nothing else. -/
def Roomy (t : Transport) (tid : JSString) : Prop :=
  ∀ o, t.reliable = some o → 0 < o.settledMaxEntries ∧ ∀ y e, t.settledReceived.get? y = some e →
    y = tid

theorem sweepSize_fits {map : Dict JSString SettledEntry} {maxEntries : Nat} (now : Nat)
    (h : map.size ≤ maxEntries) : sweepSettledMapSize map maxEntries now = map := by
  unfold sweepSettledMapSize
  cases map.size with
  | zero => rfl
  | succ n => rw [evictSettled, if_pos h]

/-- Settling `tid` loses it only where the memory has no room. -/
theorem settleReceived_drift (o : ReliableOptions) (tid : JSString) (outcome : Outcome)
    (hr : t.reliable = some o) :
    View.Drift (¬ t.Roomy tid) tid { t.view tid with memory := some ⟨outcome, t.now + o.settledTtlMs⟩ }
      ((t.settleReceived o tid outcome).view tid) := by
  by_cases roomy : t.Roomy tid
  · left
    obtain ⟨room, only⟩ := roomy o hr
    have fits : (t.settledReceived.set tid ⟨outcome, t.now + o.settledTtlMs⟩).size ≤
        o.settledMaxEntries := by
      refine le_trans (Dict.size_le_one tid fun y hy => ?_) room
      obtain ⟨e, h⟩ := Dict.mem_keys.mp hy
      rw [Dict.get?_set] at h
      split at h
      · assumption
      · exact only y e h
    have lost : ((t.settledReceived.set tid ⟨outcome, t.now + o.settledTtlMs⟩).keys.filter fun k =>
        !(t.settledReceived.set tid ⟨outcome, t.now + o.settledTtlMs⟩).has k) = [] := by
      rw [List.filter_eq_nil_iff]
      intro k hk
      obtain ⟨e, he⟩ := Dict.mem_keys.mp hk
      simp [Dict.has, he]
    simp only [settleReceived, sweepSize_fits _ fits, forget, lost]
    simp [view]
  · have lapse := view_settleReceived (x := tid) (t := t) o tid outcome
    rw [settledView, if_pos rfl] at lapse
    generalize (t.settleReceived o tid outcome).view tid = w at lapse
    cases lapse with
    | keep => exact .inl rfl
    | lose _ => exact .inr ⟨rfl, by simp [View.lose, wasForgotten], roomy⟩

theorem view_heardBy (data : Json) (listeners : List Nat) :
    (t.heardBy tid data listeners).view tid = (t.view tid).heard tid data listeners := by
  induction listeners generalizing t with
  | nil => rfl
  | cons l ls ih =>
    have called : Effect.about tid (.called tid data l) = true := by simp [Effect.about]
    have returned : Effect.about tid (.returned tid data l) = true := by simp [Effect.about]
    rw [heardBy, List.foldl_cons, ← heardBy, ih, view_record, if_pos returned, view_record,
      if_pos called]
    rfl

theorem receives_heardBy (t : Transport) (tid : JSString) (data : Json) (listeners : List Nat) :
    Receives t (t.heardBy tid data listeners) := by
  induction listeners generalizing t with
  | nil => exact .refl t
  | cons l ls ih =>
    exact ((receives_record fun _ => rfl).trans (receives_record fun _ => rfl)).trans
      (ih ((t.record (.called tid data l)).record (.returned tid data l)))

theorem acknowledged_self (t : Transport) (tid : JSString) :
    View.Drift (¬ t.Roomy tid) tid ((t.view tid).acknowledged t.reliable t.now tid)
      ((t.acknowledged tid).view tid) := by
  cases hr : t.reliable with
  | none =>
    left
    simp only [acknowledged, hr, View.acknowledged]
  | some o =>
    have loud : Effect.about tid (.answered (.ack tid)) = true := decide_eq_true rfl
    have settled := settleReceived_drift (t := t.clearNackTimer tid) o tid .ok hr
    rw [view_clearNackTimer] at settled
    simp only [ne_eq, not_true_eq_false, decide_false, Bool.false_and] at settled
    simp only [acknowledged, hr, View.acknowledged]
    rw [view_record, if_pos loud]
    rcases settled with eq | ⟨held, lost, cause⟩
    · left
      rw [eq]
      rfl
    · exact .inr ⟨held, forgotten_append [_] lost, cause⟩

/-- With no partial expired, cleaning up only sweeps the settled memory. -/
theorem cleanup_sweep (live : t.expiredPartials = []) : t.cleanup = t.sweep := by
  rw [cleanup, live, List.foldl_nil]

theorem Roomy.cleanup (live : t.expiredPartials = []) (h : t.Roomy tid) : t.cleanup.Roomy tid := by
  intro o hr
  rw [receives_cleanup.reliable] at hr
  obtain ⟨room, only⟩ := h o hr
  refine ⟨room, fun y e he => only y e ?_⟩
  rw [cleanup_sweep live, sweep, hr] at he
  exact within_sweepTtl _ _ y e he

theorem view_cleanup_exact (live : t.expiredPartials = [])
    (h : t.reliable = none ∨ (t.view tid).memory = none) : t.cleanup.view tid = t.view tid := by
  rcases h with hr | hm
  · rw [cleanup_sweep live, sweep, hr]
    rfl
  · have lapse := view_cleanup_live (x := tid) (t := t) (by rw [live]; simp)
    generalize t.cleanup.view tid = w at lapse
    cases lapse with
    | keep => rfl
    | lose hs => simp [hm] at hs

theorem settledReceived_emitErrors (t : Transport) (tid : JSString) (reports : List Report) :
    (t.emitErrors tid reports).settledReceived = t.settledReceived := by
  induction reports generalizing t with
  | nil => rfl
  | cons r reports ih => exact ih (t.emitError (some tid) r)

theorem settledReceived_heardBy (t : Transport) (tid : JSString) (data : Json) (listeners : List Nat) :
    (t.heardBy tid data listeners).settledReceived = t.settledReceived := by
  induction listeners generalizing t with
  | nil => rfl
  | cons l ls ih => exact ih ((t.record (.called tid data l)).record (.returned tid data l))

theorem settledReceived_scheduleNack (t : Transport) (tid : JSString) :
    (t.scheduleNack tid).settledReceived = t.settledReceived := by
  unfold scheduleNack
  split <;> rfl

theorem Roomy.of_eq {u : Transport} (h : t.Roomy tid) (reliable : u.reliable = t.reliable)
    (settled : u.settledReceived = t.settledReceived) : u.Roomy tid := by
  intro o hr
  rw [settled]
  exact h o (reliable ▸ hr)

/-- **`acceptPart`, seen from its own tid.** -/
theorem acceptPart_self {p : JSONTransportPacket} (live : t.expiredPartials = [])
    (h : t.reliable = none ∨ (t.view p.tid).memory = none) :
    View.Drift (¬ t.Roomy p.tid) p.tid
      ((t.view p.tid).accept t.reliable t.now t.listeners p.tid p)
      ((complete (t.acceptPart p)).view p.tid) := by
  have clean := view_cleanup_exact live h
  have fixed := receives_cleanup (t := t)
  have state : t.cleanup.openState p.tid = (t.view p.tid).opened p.tid t.now := by
    rw [← clean]
    simp only [openState, View.opened, fixed.now]
    rfl
  have opened : ((t.getState p.tid).1.scheduleNack p.tid).view p.tid =
      { t.view p.tid with
        state := some ((t.view p.tid).opened p.tid t.now)
        nack := t.reliable.isSome || (t.view p.tid).nack } := by
    rw [getState, view_scheduleNack, view_setState, clean, state]
    simp [setState, fixed.reliable]
  have kept : Receives t ((t.getState p.tid).1.scheduleNack p.tid) := receives_getState t p.tid
  have settled : ((t.getState p.tid).1.scheduleNack p.tid).settledReceived =
      t.cleanup.settledReceived := settledReceived_scheduleNack _ _
  have scopes := absorb_scope t.reliable.isSome t.now ((t.view p.tid).opened p.tid t.now) p
  rw [acceptPart_eq, state]
  generalize (t.getState p.tid).1.scheduleNack p.tid = u at opened kept settled
  simp only [View.accept]
  generalize absorb t.reliable.isSome t.now ((t.view p.tid).opened p.tid t.now) p = r at scopes
  obtain ⟨s, reports, data⟩ := r
  have errors : ((u.setState p.tid s).emitErrors p.tid reports).view p.tid =
      (t.view p.tid).awaiting t.reliable p.tid s reports := by
    rw [view_emitErrors scopes, if_pos rfl, view_setState, if_pos rfl, opened]
    rfl
  have kept' : Receives t ((u.setState p.tid s).emitErrors p.tid reports) :=
    (kept.trans (receives_setState _ s)).trans (receives_emitErrors p.tid scopes)
  have settled' : ((u.setState p.tid s).emitErrors p.tid reports).settledReceived =
      t.cleanup.settledReceived := by
    rw [settledReceived_emitErrors]
    exact settled
  rw [complete_acceptRest]
  generalize (u.setState p.tid s).emitErrors p.tid reports = w at errors kept' settled'
  cases data with
  | none =>
    left
    exact errors
  | some data =>
    have loud : Effect.about p.tid (.assembled p.tid data w.listeners) = true := by
      simp [Effect.about]
    simp only
    have rest := acknowledged_self (((w.deleteState p.tid).record
      (.assembled p.tid data w.listeners)).heardBy p.tid data w.listeners) p.tid
    have heard := receives_heardBy ((w.deleteState p.tid).record
      (.assembled p.tid data w.listeners)) p.tid data w.listeners
    rw [view_heardBy, view_record, if_pos loud, view_deleteState, if_pos rfl, errors,
      heard.reliable, heard.now] at rest
    have clock : ((w.deleteState p.tid).record (.assembled p.tid data w.listeners)).now = t.now :=
      kept'.now
    have mode : ((w.deleteState p.tid).record (.assembled p.tid data w.listeners)).reliable =
        t.reliable := kept'.reliable
    rw [clock, mode, kept'.listeners] at rest
    rw [kept'.listeners]
    rcases rest with eq | ⟨held, lost, cause⟩
    · exact .inl eq
    · refine .inr ⟨held, lost, fun roomy => cause ((roomy.cleanup live).of_eq ?_ ?_)⟩
      · rw [← kept'.listeners, heard.reliable, mode, fixed.reliable]
      · rw [settledReceived_heardBy]
        exact settled'

/-- **A packet of the tid itself.** -/
theorem deliver_self {text : JSString} {p : JSONTransportPacket} (hp : readPacket text = some p)
    (live : t.expiredPartials = []) :
    View.Drift (¬ t.Roomy p.tid) p.tid
      ((t.view p.tid).deliver t.reliable t.now t.listeners p.tid p)
      ((t.deliver text).view p.tid) := by
  rw [deliver, receive_read hp]
  cases hd : p.isData with
  | true =>
    have open_ : ¬ (t.reliable.isNone = true ∧ isControl p = true) := by
      cases p <;> simp_all [JSONTransportPacket.isData, isControl]
    have memory : (t.view p.tid).memory = t.settledReceived.get? p.tid := rfl
    rw [if_neg open_, acceptPacket_data hd, View.deliver_data hd, memory]
    cases hr : t.reliable with
    | none =>
      have self := acceptPart_self live (p := p) (.inl hr)
      rw [hr] at self
      exact self
    | some o =>
      cases hm : t.settledReceived.get? p.tid with
      | none =>
        have self := acceptPart_self live (p := p) (.inr hm)
        rw [hr] at self
        exact self
      | some entry =>
        left
        have loud : Effect.about p.tid (.answered (.ack p.tid)) = true := decide_eq_true rfl
        simp only
        split
        · rw [sendAck, complete_control, view_record, if_pos loud]
        · rw [complete_none]
  | false =>
    cases p with
    | manifest m => cases hd
    | chunk c => cases hd
    | complete tid => cases hd
    | error tid message =>
      have loud : Effect.about tid (.error (some tid) ⟨.error, message⟩) = true := by
        simp [Effect.about]
      simp only [isControl, Bool.false_eq_true, and_false, if_false]
      rw [acceptPacket_error, complete_none]
      simp only [JSONTransportPacket.tid, View.deliver, acceptError]
      cases hr : t.reliable with
      | none =>
        left
        simp only [emitError, record, hr, View.failed]
        exact (view_record _).trans (if_pos loud)
      | some o =>
        have settled := settleReceived_drift
          (t := ((t.emitError (some tid) ⟨.error, message⟩).deleteState tid).clearNackTimer tid) o tid
          .fail hr
        rw [view_clearNackTimer, view_deleteState, if_pos rfl, emitError, view_record, if_pos loud]
          at settled
        simp only [ne_eq, not_true_eq_false, decide_false, Bool.false_and] at settled
        have mode : (t.emitError (some tid) ⟨.error, message⟩).reliable = some o := hr
        simp only [mode]
        exact settled
    | ack tid =>
      left
      cases hr : t.reliable with
      | none =>
        have loud : Effect.about tid (.error (some tid) (View.mismatch (.ack tid))) = true := by
          simp [Effect.about, View.mismatch, report]
        simp only [isControl, Option.isNone_none, and_self, if_true, complete_none]
        exact (view_record _).trans (if_pos loud)
      | some o =>
        simp only [isControl, Option.isNone_some, Bool.false_eq_true, false_and, if_false, acceptPacket,
          hr, complete_none]
        exact sends_handleAck.view tid
    | nack nack =>
      left
      cases hr : t.reliable with
      | none =>
        have loud : Effect.about nack.tid (.error (some nack.tid) (View.mismatch (.nack nack))) =
            true := by
          simp [Effect.about, View.mismatch, report]
        simp only [isControl, Option.isNone_none, and_self, if_true, complete_none]
        exact (view_record _).trans (if_pos loud)
      | some o =>
        simp only [isControl, Option.isNone_some, Bool.false_eq_true, false_and, if_false, acceptPacket,
          hr]
        exact (sends_handleNack t nack).view nack.tid

/-! ## What a packet leaves alone -/

/-- `t'` is configured as `t`, at the same time. -/
structure Fixed (t t' : Transport) : Prop where
  options : t'.options = t.options
  partialTtlMs : t'.partialTtlMs = t.partialTtlMs
  reliable : t'.reliable = t.reliable
  listeners : t'.listeners = t.listeners
  attached : t'.attached = t.attached
  isOpen : t'.isOpen = t.isOpen
  now : t'.now = t.now

theorem Receives.fixed {t' : Transport} (h : Receives t t') : Fixed t t' :=
  ⟨h.options, h.partialTtlMs, h.reliable, h.listeners, h.attached, h.isOpen, h.now⟩

theorem Sends.fixed {t' : Transport} (h : Sends t t') : Fixed t t' :=
  ⟨h.options, h.partialTtlMs, h.reliable, h.listeners, h.attached, h.isOpen, h.now⟩

theorem receives_settle (n : Nat) {r : Transport × Option Frame} (h : ReceivesTo t r) :
    Receives t (settle n r).1 := by
  induction n generalizing t r with
  | zero => exact h.receives
  | succ n ih =>
    obtain ⟨t', f⟩ := r
    cases f with
    | none => exact h.receives
    | some f => exact h.receives.trans (ih (receivesTo_resume (h.incoming f rfl) true))

theorem deliver_fixed (t : Transport) (text : JSString) : Fixed t (t.deliver text) := by
  rcases receive_sides t text with h | ⟨o, hr, ⟨tid, _, eq⟩ | ⟨nack, _, eq⟩⟩
  · exact (receives_settle _ h).fixed
  · rw [deliver, eq, complete_none]
    exact sends_handleAck.fixed
  · rw [deliver, eq]
    exact (sends_handleNack t nack).fixed

theorem fireNack_receives (t : Transport) (tid : JSString) :
    Receives t (complete (t.fireNack tid)) :=
  receives_settle _ (receivesTo_fireNack tid)

/-! ## The cap -/

theorem pick_mem {map : Dict JSString SettledEntry} {now : Nat} {victim : JSString}
    (h : pickSettledEvictionVictim map now = some victim) : victim ∈ map.keys := by
  unfold pickSettledEvictionVictim at h
  split at h
  · cases h
  · rename_i oldest entry rest he
    have first : oldest ∈ map.keys := by simp [Dict.keys, he]
    split at h
    · obtain rfl := Option.some.inj h
      exact first
    · split at h
      · rename_i tid e hfind
        obtain rfl := Option.some.inj h
        exact List.mem_map.mpr ⟨_, List.mem_of_find?_eq_some hfind, rfl⟩
      · obtain rfl := Option.some.inj h
        exact first

theorem pick_none {map : Dict JSString SettledEntry} {now : Nat}
    (h : pickSettledEvictionVictim map now = none) : map.size = 0 := by
  unfold pickSettledEvictionVictim at h
  split at h
  · rename_i he
    rw [Dict.size, he]
    rfl
  · split at h
    · cases h
    · split at h <;> cases h

theorem size_delete {map : Dict JSString SettledEntry} {victim : JSString} (h : victim ∈ map.keys) :
    (map.delete victim).size < map.size := by
  obtain ⟨e, he, rfl⟩ := List.mem_map.mp h
  exact List.length_filter_lt_length_iff_exists.mpr ⟨e, he, by simp⟩

theorem evict_size (maxEntries now fuel : Nat) (map : Dict JSString SettledEntry)
    (h : map.size ≤ fuel) : (evictSettled maxEntries now fuel map).size ≤ maxEntries := by
  induction fuel generalizing map with
  | zero =>
    rw [evictSettled]
    omega
  | succ fuel ih =>
    rw [evictSettled]
    split
    · assumption
    · split
      · rename_i hp
        have := pick_none hp
        omega
      · rename_i victim hp
        have := size_delete (pick_mem hp)
        exact ih _ (by omega)

/-- The settled memory is within its cap. -/
def Capped (t : Transport) : Prop :=
  ∀ o, t.reliable = some o → t.settledReceived.size ≤ o.settledMaxEntries

theorem Capped.of_eq {u : Transport} (h : t.Capped) (reliable : u.reliable = t.reliable)
    (settled : u.settledReceived = t.settledReceived) : u.Capped := by
  intro o hr
  rw [settled]
  exact h o (reliable ▸ hr)

theorem capped_settleReceived (hr : t.reliable = some o) (tid : JSString) (outcome : Outcome) :
    (t.settleReceived o tid outcome).Capped := by
  intro o' hr'
  obtain rfl : o = o' := Option.some.inj (hr.symm.trans hr')
  exact evict_size _ _ _ _ le_rfl

theorem capped_sweep (h : t.Capped) : t.sweep.Capped := by
  intro o hr
  rw [receives_sweep.reliable] at hr
  rw [sweep, hr]
  exact le_trans (List.length_filter_le _ _) (h o hr)

theorem capped_acknowledged (h : t.Capped) (tid : JSString) : (t.acknowledged tid).Capped := by
  unfold acknowledged
  cases hr : t.reliable with
  | none => exact h
  | some o => exact (capped_settleReceived (t := t.clearNackTimer tid) hr tid .ok).of_eq rfl rfl

theorem capped_acceptPart {p : JSONTransportPacket} (live : t.expiredPartials = [])
    (h : t.Capped) : (complete (t.acceptPart p)).Capped := by
  have cleaned : t.cleanup.Capped := by
    rw [cleanup_sweep live]
    exact capped_sweep h
  have kept : Receives t ((t.getState p.tid).1.scheduleNack p.tid) := receives_getState t p.tid
  have opened : ((t.getState p.tid).1.scheduleNack p.tid).Capped :=
    cleaned.of_eq (kept.reliable.trans receives_cleanup.reliable.symm)
      (settledReceived_scheduleNack _ _)
  have scopes := absorb_scope t.reliable.isSome t.now (t.cleanup.openState p.tid) p
  rw [acceptPart_eq]
  generalize (t.getState p.tid).1.scheduleNack p.tid = u at opened
  generalize absorb t.reliable.isSome t.now (t.cleanup.openState p.tid) p = r at scopes
  obtain ⟨s, reports, data⟩ := r
  have errors : ((u.setState p.tid s).emitErrors p.tid reports).Capped :=
    opened.of_eq (receives_emitErrors p.tid scopes).reliable (settledReceived_emitErrors _ _ _)
  rw [complete_acceptRest]
  cases data with
  | none => exact errors
  | some data =>
    apply capped_acknowledged
    apply Capped.of_eq _ (receives_heardBy _ _ _ _).reliable (settledReceived_heardBy _ _ _ _)
    exact errors

theorem settledReceived_networkSend (t : Transport) (packets : List JSONTransportPacket) :
    (packets.foldl networkSend t).settledReceived = t.settledReceived := by
  induction packets generalizing t with
  | nil => rfl
  | cons p rest ih => exact ih (t.networkSend p)

theorem capped_deliver {text : JSString} (live : t.expiredPartials = []) (h : t.Capped) :
    (t.deliver text).Capped := by
  rw [deliver]
  cases hp : readPacket text with
  | none =>
    obtain ⟨r, eq⟩ := receive_unread hp t
    rw [eq, complete_none]
    exact h
  | some p =>
    rw [receive_read hp]
    split
    · rw [complete_none]
      exact h
    · rename_i hc
      cases hd : p.isData with
      | true =>
        rw [acceptPacket_data hd]
        split
        · split
          · exact h
          · exact h
        · exact capped_acceptPart live h
      | false =>
        cases p with
        | error tid message =>
          rw [acceptPacket_error, complete_none]
          simp only [acceptError]
          cases hr : t.reliable with
          | none =>
            have mode : (t.emitError (some tid) ⟨.error, message⟩).reliable = none := hr
            simp only [mode]
            exact h
          | some o =>
            have mode : (t.emitError (some tid) ⟨.error, message⟩).reliable = some o := hr
            simp only [mode]
            exact capped_settleReceived (t := ((t.emitError (some tid)
              ⟨.error, message⟩).deleteState tid).clearNackTimer tid) hr tid .fail
        | ack tid =>
          cases hr : t.reliable with
          | none => simp [hr, isControl] at hc
          | some o =>
            simp only [acceptPacket, hr, complete_none]
            refine h.of_eq sends_handleAck.reliable ?_
            unfold handleAck
            split <;> rfl
        | nack nack =>
          cases hr : t.reliable with
          | none => simp [hr, isControl] at hc
          | some o =>
            simp only [acceptPacket, hr]
            refine h.of_eq (sends_handleNack t nack).reliable ?_
            rw [complete_handleNack]
            split
            · rfl
            · exact settledReceived_networkSend _ _
        | manifest m => cases hd
        | chunk c => cases hd
        | complete tid => cases hd

/-! ## Packets, timers and the clock -/

/-- A buffered state knows its tid. -/
def Keyed (t : Transport) (tid : JSString) : Prop :=
  ∀ s, t.states.get? tid = some s → s.tid = tid

theorem buildNackPacket_tid (s : JSONReceiveState) : (buildNackPacket s).tid = s.tid := by
  unfold buildNackPacket
  split <;> rfl

theorem view_fireNack (keyed : t.Keyed tid) :
    (complete (t.fireNack tid)).view x = if x = tid then (t.view x).fireNack else t.view x := by
  have timer : (t.clearNackTimer tid).view x =
      if x = tid then { t.view x with nack := false } else t.view x := by
    rw [view_clearNackTimer]
    by_cases h : x = tid <;> simp [h]
  have states : (t.clearNackTimer tid).states = t.states := rfl
  have own : (t.view tid).state = t.states.get? tid := rfl
  rw [fireNack]
  simp only [states]
  cases hs : t.states.get? tid with
  | none =>
    rw [complete_none, timer]
    by_cases h : x = tid
    · subst h
      simp only [if_true, View.fireNack, own, hs]
    · simp only [if_neg h]
  | some s =>
    rw [hs] at own
    by_cases emitted : s.emitted = true
    · simp only [emitted, if_true]
      rw [complete_none, timer]
      by_cases h : x = tid
      · subst h
        simp only [if_true, View.fireNack, own, emitted]
      · simp only [if_neg h]
    · have key : (buildNackPacket s).tid = tid := (buildNackPacket_tid s).trans (keyed s hs)
      simp only [emitted, Bool.false_eq_true, if_false]
      rw [complete_control, view_record, timer]
      by_cases h : x = tid
      · subst h
        have loud : Effect.about x (.answered (.nack (buildNackPacket s))) = true :=
          decide_eq_true key
        simp only [if_true, if_pos loud, View.fireNack, own, emitted, Bool.false_eq_true, if_false]
      · have quiet : ¬ Effect.about x (.answered (.nack (buildNackPacket s))) = true := by
          intro loud
          exact h ((of_decide_eq_true loud).symm.trans key)
        simp only [if_neg quiet, if_neg h]

end Transport

/-- What can happen to a transport whose calls all return at once. -/
inductive Input where
  | packet (packetString : JSString)
  | fireNack (tid : JSString)
  | cleanup
  | advance (ms : Nat)

namespace Transport

/-- One input; `none` where it cannot happen. -/
def input (t : Transport) : Input → Option Transport
  | .packet text => some (t.deliver text)
  | .fireNack tid => if tid ∈ t.nackTimers then some (complete (t.fireNack tid)) else none
  | .cleanup => some t.cleanup
  | .advance ms => some { t with now := t.now + ms }

end Transport

end LemonModel
