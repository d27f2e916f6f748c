import LemonModel.Transport.Sends

/-!
# What one event does to one tid

`step_move` is the inversion of `Config.step` on the receive side of a reliable
transport: the view of a tid and the listener loops running for it change only
as `Move` says. The invariants of the receive side are proved from it.
-/

namespace LemonModel

open Text

/-- One tid on the receive side, with the listener loops running for it. -/
structure Local where
  view : View
  loops : List (Json × Nat × List Nat)

def Config.at (c : Config) (tid : JSString) : Local :=
  ⟨c.transport.view tid, c.stack.filterMap (Frame.loop tid)⟩

/-- A manifest, chunk or complete packet. -/
def JSONTransportPacket.isData : JSONTransportPacket → Bool
  | .manifest _ => true
  | .chunk _ => true
  | .complete _ => true
  | _ => false

/-- What `cleanup` does to `tid`, where its partial has expired or not. -/
inductive Cleaned (o : ReliableOptions) (now : Nat) (tid : JSString) (v : View) :
    Bool → View → Prop where
  | live {w : View} : View.Lapse tid v w → Cleaned o now tid v false w
  | expired {v₁ w u : View} :
    v.state.isSome → View.Lapse tid v v₁ →
    View.Lapse tid ⟨none, some ⟨.fail, now + o.settledTtlMs⟩, false, v₁.log⟩ w →
    View.Lapse tid (w.record (.error (some tid) (Transport.expiredReport tid))) u →
    Cleaned o now tid v true u

theorem Cleaned.lapse {o : ReliableOptions} {now : Nat} {tid : JSString} {b : Bool} {v w u : View}
    (h : Cleaned o now tid v b w) (hu : View.Lapse tid w u) : Cleaned o now tid v b u := by
  cases h with
  | live hw => exact .live (hw.trans hu)
  | expired hs h₁ h₂ h₃ => exact .expired hs h₁ h₂ (h₃.trans hu)

/-- The listener loop goes on with the listeners left, or ends. -/
inductive Looped (o : ReliableOptions) (now : Nat) (tid : JSString) (data : Json) (v : View)
    (loops : List (Json × Nat × List Nat)) : List Nat → Local → Prop where
  | call (listener : Nat) (rest : List Nat) :
    Looped o now tid data v loops (listener :: rest)
      ⟨v.record (.called tid data listener), (data, listener, rest) :: loops⟩
  | finish {w : View} :
    View.Lapse tid { v with memory := some ⟨.ok, now + o.settledTtlMs⟩, nack := false } w →
    Looped o now tid data v loops [] ⟨w.record (.answered (.ack tid)), loops⟩

/-- The state `getState` works on, from the view after its cleanup. -/
def View.opened (v : View) (tid : JSString) (now : Nat) : JSONReceiveState :=
  { v.state.getD (.fresh tid now) with updatedAt := now }

/-- The view after these errors, in order. -/
def View.complain (v : View) (tid : JSString) (reports : List Report) : View :=
  { v with log := (reports.map (.error (some tid))).reverse ++ v.log }

/-- The view after `absorb` left the state `s` and these errors. -/
def View.absorbed (v : View) (tid : JSString) (s : JSONReceiveState) (reports : List Report) :
    View :=
  { v.complain tid reports with state := some s, nack := true }

inductive Move (o : ReliableOptions) (x : JSString) (c : Config) : Event → Local → Prop where
  /-- whatever does not concern `x` -/
  | clean {e : Event} {b : Bool} {w : View} :
    Cleaned o c.transport.now x (c.at x).view b w → Move o x c e ⟨w, (c.at x).loops⟩
  | nack (tid : JSString) (b : Bool) (sent : List JSONNackPacket) :
    Move o x c (.fireNack tid)
      ⟨{ (c.at x).view with
          nack := b
          log := sent.map (fun p => .answered (.nack p)) ++ (c.at x).view.log }, (c.at x).loops⟩
  | detach :
    Move o x c .detach ⟨{ (c.at x).view with state := none, nack := false }, (c.at x).loops⟩
  | error {text message : JSString} {w : View} :
    readPacket text = some (.error x message) →
    View.Lapse x ⟨none, some ⟨.fail, c.transport.now + o.settledTtlMs⟩, false,
      .error (some x) ⟨.error, message⟩ :: (c.at x).view.log⟩ w →
    Move o x c (.receive text) ⟨w, (c.at x).loops⟩
  | reack {text : JSString} {p : JSONTransportPacket} {entry : SettledEntry} :
    readPacket text = some p → p.isData → p.tid = x → (c.at x).view.memory = some entry →
    entry.outcome = .ok →
    Move o x c (.receive text) ⟨(c.at x).view.record (.answered (.ack x)), (c.at x).loops⟩
  | absorb {text : JSString} {p : JSONTransportPacket} {w : View} {s : JSONReceiveState}
    {reports : List Report} :
    readPacket text = some p → p.isData → p.tid = x → (c.at x).view.memory = none →
    Cleaned o c.transport.now x (c.at x).view (decide (x ∈ c.transport.expiredPartials)) w →
    absorb true c.transport.now (w.opened x c.transport.now) p = (s, reports, none) →
    Move o x c (.receive text) ⟨w.absorbed x s reports, (c.at x).loops⟩
  | assemble {text : JSString} {p : JSONTransportPacket} {w : View} {s : JSONReceiveState}
    {reports : List Report} {data : Json} {m : Local} :
    readPacket text = some p → p.isData → p.tid = x → (c.at x).view.memory = none →
    Cleaned o c.transport.now x (c.at x).view (decide (x ∈ c.transport.expiredPartials)) w →
    absorb true c.transport.now (w.opened x c.transport.now) p = (s, reports, some data) →
    Looped o c.transport.now x data
      ({ w.absorbed x s reports with state := none }.record
        (.assembled x data c.transport.listeners)) (c.at x).loops c.transport.listeners m →
    Move o x c (.receive text) m
  | next {data : Json} {listener : Nat} {rest : List Nat} {stack : List Frame} {m : Local} :
    c.stack = .emit x data listener rest :: stack →
    Looped o c.transport.now x data ((c.at x).view.record (.returned x data listener))
      (stack.filterMap (Frame.loop x)) rest m →
    Move o x c (.reply true) m
  | throw {data : Json} {listener : Nat} {rest : List Nat} {stack : List Frame} :
    c.stack = .emit x data listener rest :: stack →
    Move o x c (.reply false)
      ⟨((c.at x).view.record (.threw x listener)).record (.error (some x) ⟨.packet, []⟩),
        stack.filterMap (Frame.loop x)⟩

variable {o : ReliableOptions} {x : JSString} {c c' : Config} {e : Event}

theorem Move.same : Move o x c e (c.at x) := .clean (.live .keep)

/-! ## The pieces of `acceptPart` -/

namespace Transport

variable {t : Transport} {tid : JSString}

theorem cleaned_cleanup (hr : t.reliable = some o) :
    Cleaned o t.now x (t.view x) (decide (x ∈ t.expiredPartials)) (t.cleanup.view x) := by
  by_cases h : x ∈ t.expiredPartials
  · obtain ⟨v, w, hv, hw, hu⟩ := view_cleanup_expired hr h
    obtain ⟨_, state, hs, _⟩ := mem_expiredPartials.mp h
    rw [decide_eq_true h]
    exact .expired (by rw [view, hs, Option.isSome_some]) hv hw hu
  · rw [decide_eq_false h]
    exact .live (view_cleanup_live h)

theorem view_emitErrors {reports : List Report} (h : ∀ r ∈ reports, r.scope ∈ complaints) :
    (t.emitErrors tid reports).view x =
      if x = tid then (t.view x).complain x reports else t.view x := by
  induction reports generalizing t with
  | nil =>
    split <;> rfl
  | cons r reports ih =>
    have about : Effect.about x (.error (some tid) r) = decide (x = tid) := by
      have loud : r.scope ≠ .failed := by
        intro hf
        have := h r List.mem_cons_self
        rw [hf] at this
        revert this
        decide
      simp [Effect.about, loud, eq_comm]
    have rest := ih (t := t.emitError (some tid) r) fun q hq => h q (List.mem_cons_of_mem _ hq)
    rw [emitErrors, List.foldl_cons, ← emitErrors, rest, emitError, view_record, about]
    by_cases hx : x = tid
    · simp [hx, View.record, View.complain]
    · simp [hx]

/-- The listener loop of another tid. -/
theorem emitRest_other (hr : t.reliable = some o) (h : x ≠ tid) (data : Json) (rest : List Nat) :
    View.Lapse x (t.view x) ((t.emitRest tid data rest).1.view x) ∧
      ∀ f ∈ (t.emitRest tid data rest).2, f.loop x = none := by
  cases rest with
  | cons listener rest =>
    have quiet : Effect.about x (.called tid data listener) = false := by
      simp [Effect.about, Ne.symm h]
    rw [emitRest, view_record_other quiet]
    exact ⟨.keep, by rintro f ⟨⟩; simp [Frame.loop, Ne.symm h]⟩
  | nil =>
    have quiet : Effect.about x (.answered (.ack tid)) = false := by
      simp [Effect.about, JSONTransportPacket.tid, Ne.symm h]
    have lapse := view_settleReceived (x := x) (t := t.clearNackTimer tid) o tid .ok
    rw [settledView, if_neg h, view_clearNackTimer] at lapse
    simp only [emitRest, emitEnd, hr, sendAck]
    rw [view_record_other quiet]
    exact ⟨by simpa [h] using lapse, by rintro f ⟨⟩; rfl⟩

theorem emitRest_self (tid : JSString) (hr : t.reliable = some o) (data : Json) (rest : List Nat)
    (stack : List Frame) :
    Looped o t.now tid data (t.view tid) (stack.filterMap (Frame.loop tid)) rest
      ((Config.enter stack (t.emitRest tid data rest)).at tid) := by
  cases rest with
  | cons listener rest =>
    have loud : Effect.about tid (.called tid data listener) = true := by simp [Effect.about]
    have eq : (Config.enter stack (t.emitRest tid data (listener :: rest))).at tid =
        ⟨(t.view tid).record (.called tid data listener),
          (data, listener, rest) :: stack.filterMap (Frame.loop tid)⟩ := by
      simp [Config.enter, Config.at, emitRest, Frame.loop, view_record, loud]
    rw [eq]
    exact .call listener rest
  | nil =>
    have loud : Effect.about tid (.answered (.ack tid)) = true := by
      simp [Effect.about, JSONTransportPacket.tid]
    have lapse := view_settleReceived (x := tid) (t := t.clearNackTimer tid) o tid .ok
    rw [settledView, if_pos rfl, view_clearNackTimer] at lapse
    have eq : (Config.enter stack (t.emitRest tid data [])).at tid =
        ⟨(((t.clearNackTimer tid).settleReceived o tid .ok).view tid).record
          (.answered (.ack tid)), stack.filterMap (Frame.loop tid)⟩ := by
      have control : (Frame.control :: stack).filterMap (Frame.loop tid) =
          stack.filterMap (Frame.loop tid) := List.filterMap_cons_none rfl
      simp [Config.enter, Config.at, emitRest, emitEnd, hr, sendAck, control, view_record, loud]
    rw [eq]
    simp only [ne_eq, not_true_eq_false, decide_false, Bool.false_and] at lapse
    exact .finish lapse

/-- `getState` and `scheduleNack`, seen from the tid they are for. -/
theorem view_opened (tid : JSString) (hr : t.reliable = some o) :
    (t.cleanup.setState tid (t.cleanup.openState tid) |>.scheduleNack tid).view tid =
      { t.cleanup.view tid with
        state := some ((t.cleanup.view tid).opened tid t.now), nack := true } := by
  have fixed := receives_cleanup (t := t)
  rw [view_scheduleNack, view_setState]
  simp [setState, fixed.reliable, hr, View.opened, openState, fixed.now, view]

theorem acceptRest_other (hr : t.reliable = some o) (h : x ≠ tid)
    {r : JSONReceiveState × List Report × Option Json} (scopes : ∀ q ∈ r.2.1, q.scope ∈ complaints) :
    View.Lapse x (t.view x) ((t.acceptRest tid r).1.view x) ∧
      ∀ f ∈ (t.acceptRest tid r).2, f.loop x = none := by
  obtain ⟨s, reports, data⟩ := r
  have errors : ((t.setState tid s).emitErrors tid reports).view x = t.view x := by
    rw [view_emitErrors scopes, if_neg h, view_setState]
    simp [h]
  have fixed : Receives t ((t.setState tid s).emitErrors tid reports) :=
    (receives_setState tid s).trans (receives_emitErrors tid scopes)
  simp only [acceptRest]
  generalize (t.setState tid s).emitErrors tid reports = u at errors fixed ⊢
  cases data with
  | none => exact ⟨errors ▸ .keep, by simp⟩
  | some data =>
    have quiet : Effect.about x (.assembled tid data u.listeners) = false := by
      simp [Effect.about, Ne.symm h]
    have rest := emitRest_other (t := (u.deleteState tid).record (.assembled tid data u.listeners))
      (fixed.reliable.trans hr) h data u.listeners
    rw [view_record_other quiet, view_deleteState, if_neg h, errors] at rest
    exact rest

theorem acceptRest_none {s : JSONReceiveState} {reports : List Report}
    (scopes : ∀ q ∈ reports, q.scope ∈ complaints) (stack : List Frame) :
    (Config.enter stack (t.acceptRest tid (s, reports, none))).at tid =
      ⟨{ (t.view tid).complain tid reports with state := some s },
        stack.filterMap (Frame.loop tid)⟩ := by
  simp [acceptRest, Config.enter, Config.at, view_emitErrors scopes, view_setState, View.complain]

theorem acceptRest_some (tid : JSString) (hr : t.reliable = some o) {s : JSONReceiveState}
    {reports : List Report}
    (data : Json) (scopes : ∀ q ∈ reports, q.scope ∈ complaints) (stack : List Frame) :
    Looped o t.now tid data
      ({ (t.view tid).complain tid reports with state := none }.record
        (.assembled tid data t.listeners)) (stack.filterMap (Frame.loop tid)) t.listeners
      ((Config.enter stack (t.acceptRest tid (s, reports, some data))).at tid) := by
  have fixed : Receives t ((t.setState tid s).emitErrors tid reports) :=
    (receives_setState tid s).trans (receives_emitErrors tid scopes)
  have errors : ((t.setState tid s).emitErrors tid reports).view tid =
      { (t.view tid).complain tid reports with state := some s } := by
    rw [view_emitErrors scopes, if_pos rfl, view_setState, if_pos rfl]
    rfl
  simp only [acceptRest, emitMessage]
  generalize (t.setState tid s).emitErrors tid reports = u at fixed errors ⊢
  have loud : Effect.about tid (.assembled tid data u.listeners) = true := by simp [Effect.about]
  have rest := emitRest_self tid (t := (u.deleteState tid).record (.assembled tid data u.listeners))
    (fixed.reliable.trans hr) data u.listeners stack
  have clock : ((u.deleteState tid).record (.assembled tid data u.listeners)).now = t.now :=
    fixed.now
  rw [view_record, if_pos loud, view_deleteState, if_pos rfl, errors, clock] at rest
  rw [← fixed.listeners]
  exact rest

theorem acceptPart_other {packet : JSONTransportPacket} (hr : t.reliable = some o)
    (h : x ≠ packet.tid) :
    Cleaned o t.now x (t.view x) (decide (x ∈ t.expiredPartials)) ((t.acceptPart packet).1.view x) ∧
      ∀ f ∈ (t.acceptPart packet).2, f.loop x = none := by
  have opened : ((t.getState packet.tid).1.scheduleNack packet.tid).view x = t.cleanup.view x := by
    rw [view_scheduleNack, getState, view_setState]
    simp [h]
  have rest := acceptRest_other ((receives_getState t packet.tid).reliable.trans hr) h
    (absorb_scope (t.getState packet.tid).1.reliable.isSome (t.getState packet.tid).1.now
      (t.getState packet.tid).2 packet)
  rw [opened] at rest
  exact ⟨(cleaned_cleanup hr).lapse rest.1, rest.2⟩

theorem acceptPacket_data {p : JSONTransportPacket} (h : p.isData) (t : Transport) :
    t.acceptPacket p =
      match t.reliable, t.settledReceived.get? p.tid with
      | some _, some entry => if entry.outcome = .ok then t.sendAck p.tid else (t, none)
      | _, _ => t.acceptPart p := by
  cases hr : t.reliable with
  | none => cases p <;> first | (simp only [acceptPacket, hr]; done) | cases h
  | some o =>
    cases hm : t.settledReceived.get? p.tid with
    | none => cases p <;> first | (simp only [acceptPacket, hr, hm]; done) | cases h
    | some entry => cases p <;> first | (simp only [acceptPacket, hr, hm]; done) | cases h

theorem acceptPacket_error (t : Transport) (tid message : JSString) :
    t.acceptPacket (.error tid message) = (t.acceptError tid message, none) := by
  cases hr : t.reliable <;> simp only [acceptPacket, hr]

end Transport

/-! ## The moves of one event -/

open Transport

theorem Config.at_sends {t : Transport} {r : Transport × Option Frame} {stack : List Frame}
    (h : SendsTo t r) : (Config.enter stack r).at x = ⟨t.view x, stack.filterMap (Frame.loop x)⟩ := by
  obtain ⟨t', f⟩ := r
  cases f with
  | none => simp [Config.enter, Config.at, h.sends.view x]
  | some f =>
    have loop : (f :: stack).filterMap (Frame.loop x) = stack.filterMap (Frame.loop x) :=
      List.filterMap_cons_none (h.loop x f rfl)
    simp [Config.enter, Config.at, h.sends.view x, loop]

theorem Config.at_other {r : Transport × Option Frame} {stack : List Frame}
    (h : ∀ f ∈ r.2, f.loop x = none) :
    (Config.enter stack r).at x = ⟨r.1.view x, stack.filterMap (Frame.loop x)⟩ := by
  obtain ⟨t', f⟩ := r
  cases f with
  | none => rfl
  | some f =>
    have loop : (f :: stack).filterMap (Frame.loop x) = stack.filterMap (Frame.loop x) :=
      List.filterMap_cons_none (h f rfl)
    simp [Config.enter, Config.at, loop]

theorem acceptPart_move {text : JSString} {p : JSONTransportPacket}
    (hr : c.transport.reliable = some o) (hp : readPacket text = some p) (hd : p.isData)
    (hm : c.transport.settledReceived.get? p.tid = none) :
    Move o x c (.receive text) ((Config.enter c.stack (c.transport.acceptPart p)).at x) := by
  by_cases hx : x = p.tid
  · subst hx
    have fixed := receives_getState c.transport p.tid
    have opened := view_opened p.tid hr
    have cleaned := cleaned_cleanup (x := p.tid) hr
    have state : c.transport.cleanup.openState p.tid =
        (c.transport.cleanup.view p.tid).opened p.tid c.transport.now := by
      simp only [openState, View.opened, (receives_cleanup (t := c.transport)).now]
      rfl
    have eq : c.transport.acceptPart p =
        ((c.transport.getState p.tid).1.scheduleNack p.tid).acceptRest p.tid
          (absorb true c.transport.now
            ((c.transport.cleanup.view p.tid).opened p.tid c.transport.now) p) := by
      have cleanup := receives_cleanup (t := c.transport)
      simp only [acceptPart, getState, state, setState, cleanup.reliable, hr, cleanup.now,
        Option.isSome_some]
    have scopes := absorb_scope true c.transport.now
      ((c.transport.cleanup.view p.tid).opened p.tid c.transport.now) p
    rw [eq]
    rw [getState]
    cases ha : absorb true c.transport.now
      ((c.transport.cleanup.view p.tid).opened p.tid c.transport.now) p with
    | mk s r =>
      obtain ⟨reports, data⟩ := r
      rw [ha] at scopes
      cases data with
      | none =>
        rw [acceptRest_none scopes, opened]
        exact Move.absorb (w := c.transport.cleanup.view p.tid) hp hd rfl hm cleaned ha
      | some data =>
        have looped := acceptRest_some p.tid (fixed.reliable.trans hr) (s := s) data scopes
          c.stack
        rw [fixed.now, fixed.listeners] at looped
        simp only [getState] at looped
        rw [opened] at looped
        exact Move.assemble (w := c.transport.cleanup.view p.tid) hp hd rfl hm cleaned ha looped
  · obtain ⟨cleaned, loops⟩ := acceptPart_other (t := c.transport) hr hx
    rw [Config.at_other loops]
    exact .clean cleaned

theorem acceptError_eq {t : Transport} (hr : t.reliable = some o) (tid message : JSString) :
    t.acceptError tid message =
      (((t.emitError (some tid) ⟨.error, message⟩).deleteState tid).clearNackTimer tid).settleReceived
        o tid .fail := by
  have kept : (t.emitError (some tid) ⟨.error, message⟩).reliable = some o := hr
  simp only [acceptError, kept]

theorem acceptPacket_move {text : JSString} {p : JSONTransportPacket}
    (hr : c.transport.reliable = some o) (hp : readPacket text = some p) :
    Move o x c (.receive text) ((Config.enter c.stack (c.transport.acceptPacket p)).at x) := by
  by_cases hd : p.isData
  · rw [acceptPacket_data hd, hr]
    cases hm : c.transport.settledReceived.get? p.tid with
    | none => exact acceptPart_move hr hp hd hm
    | some entry =>
      by_cases hok : entry.outcome = .ok
      · by_cases hx : x = p.tid
        · subst hx
          have loud : Effect.about p.tid (.answered (.ack p.tid)) = true := by
            simp [Effect.about, JSONTransportPacket.tid]
          have control : (Frame.control :: c.stack).filterMap (Frame.loop p.tid) =
              c.stack.filterMap (Frame.loop p.tid) := List.filterMap_cons_none rfl
          have eq : (Config.enter c.stack (c.transport.sendAck p.tid)).at p.tid =
              ⟨(c.at p.tid).view.record (.answered (.ack p.tid)), (c.at p.tid).loops⟩ := by
            simp [Config.enter, Config.at, sendAck, control, view_record, loud]
          simp only [hok, if_true]
          rw [eq]
          exact .reack hp hd rfl hm hok
        · have quiet : Effect.about x (.answered (.ack p.tid)) = false :=
            decide_eq_false (Ne.symm hx)
          simp only [hok, if_true, sendAck]
          rw [Config.at_other (by rintro f ⟨⟩; rfl), view_record_other quiet]
          exact .same
      · simp only [hok, if_false]
        exact .same
  · cases p with
    | ack tid =>
      simp only [acceptPacket, hr]
      rw [Config.at_sends (.done sends_handleAck)]
      exact .same
    | nack nack =>
      simp only [acceptPacket, hr]
      rw [Config.at_sends (sendsTo_handleNack nack)]
      exact .same
    | error tid message =>
      rw [acceptPacket_error, acceptError_eq hr, Config.at_other (by simp)]
      by_cases hx : x = tid
      · subst hx
        have loud : Effect.about x (.error (some x) ⟨.error, message⟩) = true := by
          simp [Effect.about]
        have lapse := view_settle_self x (t := c.transport.emitError (some x) ⟨.error, message⟩) o
          .fail
        rw [emitError, view_record, if_pos loud] at lapse
        exact .error hp lapse
      · have quiet : Effect.about x (.error (some tid) ⟨.error, message⟩) = false := by
          simp [Effect.about, Ne.symm hx]
        have lapse := view_settleReceived (x := x) (t := ((c.transport.emitError (some tid)
          ⟨.error, message⟩).deleteState tid).clearNackTimer tid) o tid .fail
        rw [settledView, if_neg hx, view_clearNackTimer, view_deleteState, if_neg hx, emitError,
          view_record_other quiet] at lapse
        simp only [ne_eq, hx, not_false_eq_true, decide_true, Bool.true_and] at lapse
        exact .clean (.live lapse)
    | manifest p => simp [JSONTransportPacket.isData] at hd
    | chunk p => simp [JSONTransportPacket.isData] at hd
    | complete tid => simp [JSONTransportPacket.isData] at hd

theorem fireNack_move (tid : JSString) :
    Move o x c (.fireNack tid) ((Config.enter c.stack (c.transport.fireNack tid)).at x) := by
  have timer := view_clearNackTimer tid (t := c.transport) (x := x)
  simp only [fireNack]
  split
  · rw [Config.at_other (by simp), timer]
    exact .nack tid _ []
  · split
    · rw [Config.at_other (by simp), timer]
      exact .nack tid _ []
    · rename_i state _ _
      rw [Config.at_other (by rintro f ⟨⟩; rfl), view_record]
      split
      · rw [timer]
        exact .nack tid _ [buildNackPacket state]
      · rw [timer]
        exact .nack tid _ []

theorem detach_move (hr : c.transport.reliable = some o) :
    Move o x c .detach (Config.at { c with transport := c.transport.detach } x) := by
  have sends := (sends_detachReliable (t := c.transport) (o := o)).view x
  have eq : c.transport.detach =
      { c.transport.detachReliable o with attached := false, states := .empty, listeners := [] } := by
    simp only [detach, hr]
  have view : c.transport.detach.view x =
      { c.transport.view x with state := none, nack := false } := by
    have timers : (c.transport.detachReliable o).nackTimers = [] := rfl
    rw [eq]
    simp only [view, View.mk.injEq] at sends ⊢
    simp [sends.2.1, sends.2.2.2, timers]
  rw [show Config.at _ x = ⟨_, _⟩ from rfl, view]
  exact .detach

theorem loop_move {tid : JSString} {data : Json} {listener : Nat} {after : List Nat}
    {rest : List Frame} (hr : c.transport.reliable = some o) (ok : Bool)
    (hs : c.stack = .emit tid data listener after :: rest) :
    Move o x c (.reply ok)
      ((Config.enter rest (c.transport.resume ok (.emit tid data listener after))).at x) := by
  by_cases hx : x = tid
  · subst hx
    cases ok with
    | true =>
      have loud : Effect.about x (.returned x data listener) = true := by simp [Effect.about]
      have looped := emitRest_self x (t := c.transport.record (.returned x data listener)) hr data
        after rest
      rw [view_record, if_pos loud] at looped
      exact .next hs looped
    | false =>
      have threw : Effect.about x (.threw x listener) = true := by simp [Effect.about]
      have caught : Effect.about x (.error (some x) ⟨.packet, []⟩) = true := by simp [Effect.about]
      have eq : c.transport.resume false (.emit x data listener after) =
          ((c.transport.record (.threw x listener)).record (.error (some x) ⟨.packet, []⟩), none) :=
        rfl
      rw [eq, Config.at_other (by simp), view_record, if_pos caught, view_record, if_pos threw]
      exact .throw hs
  · have loops : c.stack.filterMap (Frame.loop x) = rest.filterMap (Frame.loop x) := by
      rw [hs]
      exact List.filterMap_cons_none (by simp [Frame.loop, Ne.symm hx])
    cases ok with
    | true =>
      have quiet : Effect.about x (.returned tid data listener) = false := by
        simp [Effect.about, Ne.symm hx]
      have other := emitRest_other (x := x) (t := c.transport.record (.returned tid data listener)) hr
        hx data after
      rw [view_record_other quiet] at other
      rw [resume, if_pos rfl, Config.at_other other.2, ← loops]
      exact .clean (.live other.1)
    | false =>
      have threw : Effect.about x (.threw tid listener) = false := by
        simp [Effect.about, Ne.symm hx]
      have caught : Effect.about x (.error (some tid) ⟨.packet, []⟩) = false := by
        simp [Effect.about, Ne.symm hx]
      have eq : c.transport.resume false (.emit tid data listener after) =
          ((c.transport.record (.threw tid listener)).record (.error (some tid) ⟨.packet, []⟩),
            none) := rfl
      rw [eq, Config.at_other (by simp), view_record_other caught, view_record_other threw, ← loops]
      exact .same

/-- **What one event can do to one tid.** -/
theorem step_move (hr : c.transport.reliable = some o) (h : c.step e = some c') :
    Move o x c e (c'.at x) := by
  cases e with
  | receive text =>
    cases h
    have silent : ∀ r : Report, Effect.about x (.error none r) = false := fun r => rfl
    cases hp : parse text with
    | none =>
      simp only [receive, hp]
      rw [Config.at_other (by simp), emitError, view_record_other (silent _)]
      exact .same
    | some j =>
      cases hj : isJSONTransportPacket j with
      | none =>
        simp only [receive, hp, hj]
        rw [Config.at_other (by simp), emitError, view_record_other (silent _)]
        exact .same
      | some p =>
        have eq : c.transport.receive text = c.transport.acceptPacket p := by
          simp [receive, hp, hj, hr]
        rw [eq]
        exact acceptPacket_move hr (by rw [readPacket, hp, Option.bind_some, hj])
  | send data ids =>
    cases h
    rw [Config.at_sends (sendsTo_send data ids)]
    exact .same
  | resendTick timer =>
    simp only [Config.step] at h
    split at h
    · rename_i idle
      cases h
      rw [Config.at_sends (sendsTo_resendTick timer), ← List.isEmpty_iff.mp idle.1]
      exact .same
    · cases h
  | fireNack tid =>
    simp only [Config.step] at h
    split at h
    · rename_i idle
      cases h
      rw [← List.isEmpty_iff.mp idle.1]
      exact fireNack_move tid
    · cases h
  | cleanup =>
    cases h
    exact .clean (cleaned_cleanup hr)
  | advance ms => cases h; exact .same
  | readyState isOpen => cases h; exact .same
  | configure options partialTtlMs => cases h; exact .same
  | onMessage listener =>
    cases h
    have eq : (c.transport.onMessage listener).view x = c.transport.view x := by
      unfold onMessage
      split <;> rfl
    rw [show Config.at _ x = ⟨_, _⟩ from rfl, eq]
    exact .same
  | unsubscribe listener => cases h; exact .same
  | detach =>
    cases h
    exact detach_move hr
  | reply ok =>
    simp only [Config.step] at h
    split at h
    · cases h
    · rename_i f rest hs
      cases h
      by_cases hloop : ∀ y, f.loop y = none
      · have loops : c.stack.filterMap (Frame.loop x) = rest.filterMap (Frame.loop x) := by
          rw [hs]
          exact List.filterMap_cons_none (hloop x)
        rw [Config.at_sends (sendsTo_resume hloop ok), ← loops]
        exact .same
      · cases f with
        | emit tid data listener after => exact loop_move hr ok hs
        | attempt => exact absurd (fun _ => rfl) hloop
        | fail => exact absurd (fun _ => rfl) hloop
        | resend => exact absurd (fun _ => rfl) hloop
        | control => exact absurd (fun _ => rfl) hloop
        | plain => exact absurd (fun _ => rfl) hloop

/-! ## What every event keeps -/

/-- A packet is received, or it is an ack or a nack for the send side. -/
theorem receive_sides (t : Transport) (text : JSString) :
    ReceivesTo t (t.receive text) ∨ ∃ o, t.reliable = some o ∧
      ((∃ tid, readPacket text = some (.ack tid) ∧ t.receive text = (t.handleAck o tid, none)) ∨
        ∃ nack, readPacket text = some (.nack nack) ∧ t.receive text = t.handleNack nack) := by
  cases hp : parse text with
  | none =>
    simp only [receive, hp]
    exact .inl (.done (receives_emitError _ (by simp)))
  | some j =>
    cases hj : isJSONTransportPacket j with
    | none =>
      simp only [receive, hp, hj]
      exact .inl (.done (receives_emitError _ (by simp [report])))
    | some p =>
      have read : readPacket text = some p := by rw [readPacket, hp, Option.bind_some, hj]
      cases hr : t.reliable with
      | none =>
        by_cases control : isControl p = true
        · simp only [receive, hp, hj, hr, control]
          exact .inl (.done (receives_emitError _ (by simp [report])))
        · have eq : t.receive text = t.acceptPacket p := by simp [receive, hp, hj, control]
          rw [eq]
          left
          cases p with
          | error tid message =>
            simp only [acceptPacket, hr]
            exact .done (receives_acceptError tid message)
          | ack tid => simp [isControl] at control
          | nack nack => simp [isControl] at control
          | manifest p => simp only [acceptPacket, hr]; exact receivesTo_acceptPart _
          | chunk p => simp only [acceptPacket, hr]; exact receivesTo_acceptPart _
          | complete tid => simp only [acceptPacket, hr]; exact receivesTo_acceptPart _
      | some o =>
        have eq : t.receive text = t.acceptPacket p := by simp [receive, hp, hj, hr]
        have part (data : p.isData) : ReceivesTo t (t.acceptPacket p) := by
          rw [acceptPacket_data data]
          split
          · split
            · exact receivesTo_sendAck _
            · exact .done (.refl t)
          · exact receivesTo_acceptPart p
        rw [eq]
        cases p with
        | ack tid => exact .inr ⟨o, rfl, .inl ⟨tid, read, by simp only [acceptPacket, hr]⟩⟩
        | nack nack => exact .inr ⟨o, rfl, .inr ⟨nack, read, by simp only [acceptPacket, hr]⟩⟩
        | error tid message =>
          rw [acceptPacket_error]
          exact .inl (.done (receives_acceptError tid message))
        | manifest p => exact .inl (part rfl)
        | chunk p => exact .inl (part rfl)
        | complete tid => exact .inl (part rfl)

theorem receive_reliable (t : Transport) (text : JSString) :
    (t.receive text).1.reliable = t.reliable ∧ (t.receive text).1.listeners = t.listeners := by
  rcases receive_sides t text with h | ⟨o, _, ⟨tid, _, h⟩ | ⟨nack, _, h⟩⟩
  · exact ⟨h.receives.reliable, h.receives.listeners⟩
  · rw [h]
    exact ⟨sends_handleAck.reliable, sends_handleAck.listeners⟩
  · rw [h]
    have := (sendsTo_handleNack (t := t) nack).sends
    exact ⟨this.reliable, this.listeners⟩

theorem loop_none {f : Frame} (h : f.incoming = false) (y : JSString) : f.loop y = none := by
  cases f <;> first | rfl | cases h

theorem resume_reliable (t : Transport) (ok : Bool) (f : Frame) :
    (t.resume ok f).1.reliable = t.reliable ∧ (t.resume ok f).1.listeners = t.listeners := by
  cases hf : f.incoming with
  | true =>
    have := (receivesTo_resume (t := t) hf ok).receives
    exact ⟨this.reliable, this.listeners⟩
  | false =>
    have := (sendsTo_resume (t := t) (loop_none hf) ok).sends
    exact ⟨this.reliable, this.listeners⟩

/-- No event changes the mode, and a listener is registered once at most. -/
theorem step_reliable (h : c.step e = some c') :
    c'.transport.reliable = c.transport.reliable ∧
      (c.transport.listeners.Nodup → c'.transport.listeners.Nodup) := by
  have keep : ∀ t : Transport,
      t.reliable = c.transport.reliable ∧ t.listeners = c.transport.listeners →
      t.reliable = c.transport.reliable ∧ (c.transport.listeners.Nodup → t.listeners.Nodup) :=
    fun t ht => ⟨ht.1, ht.2 ▸ id⟩
  cases e with
  | receive text =>
    cases h
    exact keep _ (receive_reliable _ _)
  | send data ids =>
    cases h
    have := (sendsTo_send (t := c.transport) data ids).sends
    exact keep _ ⟨this.reliable, this.listeners⟩
  | resendTick timer =>
    simp only [Config.step] at h
    split at h
    · cases h
      have := (sendsTo_resendTick (t := c.transport) timer).sends
      exact keep _ ⟨this.reliable, this.listeners⟩
    · cases h
  | fireNack tid =>
    simp only [Config.step] at h
    split at h
    · cases h
      have := (receivesTo_fireNack (t := c.transport) tid).receives
      exact keep _ ⟨this.reliable, this.listeners⟩
    · cases h
  | cleanup =>
    cases h
    have := receives_cleanup (t := c.transport)
    exact keep _ ⟨this.reliable, this.listeners⟩
  | advance ms => cases h; exact keep _ ⟨rfl, rfl⟩
  | readyState isOpen => cases h; exact keep _ ⟨rfl, rfl⟩
  | configure options partialTtlMs => cases h; exact keep _ ⟨rfl, rfl⟩
  | onMessage listener =>
    cases h
    simp only [onMessage]
    split
    · exact ⟨rfl, id⟩
    · rename_i fresh
      refine ⟨rfl, fun nodup => ?_⟩
      rw [List.nodup_append]
      exact ⟨nodup, List.nodup_singleton _, fun a ha b hb => by
        rintro rfl
        exact fresh (List.mem_singleton.mp hb ▸ ha)⟩
  | unsubscribe listener =>
    cases h
    exact ⟨rfl, fun nodup => nodup.filter _⟩
  | detach =>
    cases h
    simp only [detach]
    split
    · rename_i o _
      exact ⟨(sends_detachReliable (t := c.transport) (o := o)).reliable, fun _ => List.nodup_nil⟩
    · exact ⟨rfl, fun _ => List.nodup_nil⟩
  | reply ok =>
    simp only [Config.step] at h
    split at h
    · cases h
    · cases h
      exact keep _ (resume_reliable _ _ _)

end LemonModel
