import LemonModel.Transport.Paths

/-!
# Many messages in either mode

The packets of some messages come in any order, each of them once, to a transport of
either mode. `Stage` says where one message stands. A packet moves the stage of its own
message only, and what the settled memory drops is of no account.
-/

namespace LemonModel

open Text

variable {t t' : Transport} {tid : JSString} {listener : Nat} {m : Message} {ms : List Message}
  {listeners : List Nat} {l : List JSONTransportPacket} {v w : View}

/-- What a listener was told of a tid, the newest first. -/
def View.told (v : View) (listener : Nat) : List Json := v.log.filterMap (Effect.heard? listener)

theorem told_lapse (h : View.Lapse tid v w) (listener : Nat) : w.told listener = v.told listener := by
  cases h <;> rfl

/-- The errors of a packet are none of the listeners' business. -/
theorem told_complain (v : View) (tid : JSString) (reports : List Report) (listener : Nat) :
    (v.complain tid reports).told listener = v.told listener := by
  have quiet : (reports.map (Effect.error (some tid))).reverse.filterMap (Effect.heard? listener) =
      [] := by
    rw [List.filterMap_eq_nil_iff]
    intro e he
    obtain ⟨r, -, rfl⟩ := List.mem_map.mp (List.mem_reverse.mp he)
    rfl
  simp only [View.told, View.complain, List.filterMap_append, quiet, List.nil_append]

namespace Transport

/-! ## A packet of data -/

theorem told_acknowledged (t : Transport) (tid : JSString) :
    ((t.acknowledged tid).view tid).state = (t.view tid).state ∧
      ∀ listener, ((t.acknowledged tid).view tid).told listener = (t.view tid).told listener := by
  unfold acknowledged
  cases hr : t.reliable with
  | none => exact ⟨rfl, fun _ => rfl⟩
  | some o =>
    have lapse := view_settleReceived (x := tid) (t := t.clearNackTimer tid) o tid .ok
    rw [settledView, if_pos rfl, view_clearNackTimer] at lapse
    have loud : Effect.about tid (.answered (.ack tid)) = true := decide_eq_true rfl
    simp only
    rw [view_record, if_pos loud]
    exact ⟨lapse.state_eq, fun listener => told_lapse lapse listener⟩

theorem told_heardBy (nodup : listeners.Nodup) (t : Transport) (tid : JSString) (data : Json) :
    ((t.heardBy tid data listeners).view tid).state = (t.view tid).state ∧
      ∀ listener ∈ listeners, ((t.heardBy tid data listeners).view tid).told listener =
        data :: (t.view tid).told listener := by
  obtain ⟨log, states, -⟩ := log_heardBy t tid data listeners
  have own : ∀ e ∈ (listeners.flatMap fun l =>
      [Effect.called tid data l, .returned tid data l]).reverse, Effect.about tid e = true := by
    intro e he
    obtain ⟨l, -, he⟩ := List.mem_flatMap.mp (List.mem_reverse.mp he)
    rcases List.mem_pair.mp he with rfl | rfl <;> simp [Effect.about]
  refine ⟨congrArg (Dict.get? · tid) states, fun listener mem => ?_⟩
  simp only [View.told, view, log, List.filter_append, List.filter_eq_self.mpr own,
    List.filterMap_append, heard_once nodup mem]
  rfl

/-- The message is there. -/
theorem acceptRest_told (nodup : t.listeners.Nodup) (tid : JSString) (s : JSONReceiveState)
    {reports : List Report} (scopes : ∀ r ∈ reports, r.scope ∈ complaints) (data : Json) :
    ((complete (t.acceptRest tid (s, reports, some data))).view tid).state = none ∧
      ∀ listener ∈ t.listeners,
        ((complete (t.acceptRest tid (s, reports, some data))).view tid).told listener =
          data :: (t.view tid).told listener := by
  have kept : Receives t ((t.setState tid s).emitErrors tid reports) :=
    (receives_setState tid s).trans (receives_emitErrors tid scopes)
  have errors : ((t.setState tid s).emitErrors tid reports).view tid =
      { (t.view tid).complain tid reports with state := some s } := by
    rw [view_emitErrors scopes, if_pos rfl, view_setState, if_pos rfl]
    rfl
  rw [complete_acceptRest]
  generalize (t.setState tid s).emitErrors tid reports = u at kept errors
  have loud : Effect.about tid (.assembled tid data u.listeners) = true := by simp [Effect.about]
  have start : (((u.deleteState tid).record (.assembled tid data u.listeners)).view tid).state =
      none ∧ ∀ listener, (((u.deleteState tid).record
        (.assembled tid data u.listeners)).view tid).told listener = (t.view tid).told listener := by
    rw [view_record, if_pos loud, view_deleteState, if_pos rfl, errors]
    exact ⟨rfl, fun listener => told_complain (t.view tid) tid reports listener⟩
  simp only [← kept.listeners] at nodup ⊢
  obtain ⟨called, told⟩ := told_heardBy nodup
    ((u.deleteState tid).record (.assembled tid data u.listeners)) tid data
  refine ⟨(told_acknowledged _ tid).1.trans (called.trans start.1), fun listener mem => ?_⟩
  rw [← start.2 listener]
  exact ((told_acknowledged _ tid).2 listener).trans (told listener mem)

/-- A packet of data of a tid that was not settled. -/
theorem deliver_open {p : JSONTransportPacket} (hp : p.Wf) (hd : p.isData)
    (fresh : t.reliable = none ∨ (t.view p.tid).memory = none) :
    t.deliver p.wire = complete (t.acceptPart p) := by
  have data : ¬ (t.reliable.isNone = true ∧ isControl p = true) := by
    cases p <;> simp_all [JSONTransportPacket.isData, isControl]
  rw [deliver, receive_read (readPacket_wire hp), if_neg data, acceptPacket_data hd]
  rcases fresh with plain | fresh
  · rw [plain]
  · have unknown : t.settledReceived.get? p.tid = none := fresh
    rw [unknown]
    cases t.reliable <;> rfl

/-- A packet of data of a tid that was settled. -/
theorem deliver_settled {p : JSONTransportPacket} {o : ReliableOptions} {entry : SettledEntry}
    (hp : p.Wf) (hd : p.isData) (mode : t.reliable = some o)
    (settled : (t.view p.tid).memory = some entry) :
    (t.deliver p.wire).view p.tid =
      if entry.outcome = .ok then (t.view p.tid).record (.answered (.ack p.tid))
      else t.view p.tid := by
  have data : ¬ (t.reliable.isNone = true ∧ isControl p = true) := by simp [mode]
  have known : t.settledReceived.get? p.tid = some entry := settled
  have loud : Effect.about p.tid (.answered (.ack p.tid)) = true := decide_eq_true rfl
  rw [deliver, receive_read (readPacket_wire hp), if_neg data, acceptPacket_data hd, mode, known]
  simp only
  split
  · rw [sendAck, complete_control, view_record, if_pos loud]
  · rw [complete_none]

/-- Part of a message: the state is kept. -/
theorem deliver_waiting {p : JSONTransportPacket} {s : JSONReceiveState} {reports : List Report}
    (hp : p.Wf) (hd : p.isData) (fresh : t.reliable = none ∨ (t.view p.tid).memory = none)
    (live : t.expiredPartials = [])
    (absorbed : absorb t.reliable.isSome t.now ((t.view p.tid).opened p.tid t.now) p =
      (s, reports, none)) :
    (t.deliver p.wire).view p.tid = (t.view p.tid).awaiting t.reliable p.tid s reports := by
  have self := acceptPart_self live (p := p) fresh
  rw [← deliver_open hp hd fresh, View.accept, absorbed] at self
  rcases self with same | ⟨held, -, cramped⟩
  · exact same
  · rcases fresh with plain | fresh
    · refine absurd (fun o mode => ?_) cramped
      rw [plain] at mode
      cases mode
    · have none : ((t.view p.tid).awaiting t.reliable p.tid s reports).memory =
          (t.view p.tid).memory := rfl
      rw [none, fresh] at held
      cases held

/-- The last of a message: the listeners are called. -/
theorem deliver_last {p : JSONTransportPacket} {s : JSONReceiveState} {reports : List Report}
    {data : Json} (hp : p.Wf) (hd : p.isData)
    (fresh : t.reliable = none ∨ (t.view p.tid).memory = none) (live : t.expiredPartials = [])
    (nodup : t.listeners.Nodup)
    (absorbed : absorb t.reliable.isSome t.now ((t.view p.tid).opened p.tid t.now) p =
      (s, reports, some data)) :
    ((t.deliver p.wire).view p.tid).state = none ∧ ∀ listener ∈ t.listeners,
      ((t.deliver p.wire).view p.tid).told listener = data :: (t.view p.tid).told listener := by
  have clean : t.cleanup.view p.tid = t.view p.tid := view_cleanup_exact live fresh
  have fixed := receives_cleanup (t := t)
  have state : t.cleanup.openState p.tid = (t.view p.tid).opened p.tid t.now := by
    rw [← clean]
    simp only [openState, View.opened, fixed.now]
    rfl
  have kept : Receives t ((t.getState p.tid).1.scheduleNack p.tid) := receives_getState t p.tid
  have opened (listener : Nat) : (((t.getState p.tid).1.scheduleNack p.tid).view p.tid).told
      listener = (t.view p.tid).told listener := by
    rw [getState, view_scheduleNack, view_setState, clean]
    rfl
  have scopes := absorb_scope t.reliable.isSome t.now ((t.view p.tid).opened p.tid t.now) p
  rw [absorbed] at scopes
  rw [deliver_open hp hd fresh, acceptPart_eq, state, absorbed]
  simp only [← kept.listeners] at nodup ⊢
  obtain ⟨gone, told⟩ := acceptRest_told nodup p.tid s scopes data
  refine ⟨gone, fun listener mem => ?_⟩
  rw [← opened]
  exact told listener mem

end Transport

/-! ## One message -/

/-- Where a message stands whose packets `l` have come. -/
structure Stage (m : Message) (listeners : List Nat) (l : List JSONTransportPacket) (v : View) :
    Prop where
  keyed : ∀ s, v.state = some s → s.tid = m.tid
  waiting : ¬ m.arrived l → v.memory = none ∧
    Genuine m.split (v.state.getD (.fresh m.tid 0)) ∧
    (∀ q ∈ m.split.packets, (v.state.getD (.fresh m.tid 0)).got q = true ↔ q ∈ l) ∧
    ∀ listener ∈ listeners, v.told listener = []
  done : m.arrived l → v.state = none ∧ ∀ listener ∈ listeners, v.told listener = [m.value]

theorem Stage.of_arrived {l' : List JSONTransportPacket} (h : Stage m listeners l v)
    (same : ∀ q ∈ m.split.packets, q ∈ l' ↔ q ∈ l) : Stage m listeners l' v := by
  have arrived : m.arrived l' ↔ m.arrived l := forall₂_congr same
  refine ⟨h.keyed, fun part => ?_, fun all => h.done (arrived.mp all)⟩
  obtain ⟨fresh, genuine, got, silent⟩ := h.waiting fun all => part (arrived.mpr all)
  exact ⟨fresh, genuine, fun q hq => (got q hq).trans (same q hq).symm, silent⟩

theorem Stage.lapse (h : Stage m listeners l v) (lapse : View.Lapse tid v w) :
    Stage m listeners l w := by
  refine ⟨?_, fun part => ?_, fun all => ?_⟩
  · rw [lapse.state_eq]
    exact h.keyed
  · obtain ⟨fresh, rest⟩ := h.waiting part
    obtain rfl : w = v := Lapse.of_none lapse fresh
    exact ⟨fresh, rest⟩
  · rw [lapse.state_eq]
    exact ⟨(h.done all).1, fun listener mem => (told_lapse lapse listener).trans ((h.done all).2 _ mem)⟩

theorem fireNack_frame (v : View) : v.fireNack.state = v.state ∧ v.fireNack.memory = v.memory ∧
    ∀ listener, v.fireNack.told listener = v.told listener := by
  unfold View.fireNack
  split
  · exact ⟨rfl, rfl, fun _ => rfl⟩
  · split <;> exact ⟨rfl, rfl, fun _ => rfl⟩

theorem Stage.fireNack (h : Stage m listeners l v) : Stage m listeners l v.fireNack := by
  obtain ⟨state, memory, told⟩ := fireNack_frame v
  refine ⟨?_, ?_, ?_⟩
  · rw [state]
    exact h.keyed
  · simp only [state, memory, told]
    exact h.waiting
  · simp only [state, told]
    exact h.done

theorem opened_eq (v : View) (tid : JSString) (now : Nat) :
    v.opened tid now = { v.state.getD (.fresh tid 0) with updatedAt := now } := by
  unfold View.opened
  cases v.state <;> rfl

/-- A packet of the message itself. -/
theorem Stage.packet (h : Stage m t.listeners l (t.view m.tid)) (nodup : t.listeners.Nodup)
    (live : t.expiredPartials = []) {q : JSONTransportPacket} (hq : q ∈ m.split.packets)
    (new : q ∉ l) : Stage m t.listeners (l ++ [q]) ((t.deliver q.wire).view m.tid) := by
  obtain ⟨fresh, genuine, got, silent⟩ := h.waiting (Message.not_arrived hq new)
  have own : q.tid = m.tid := m.carries.packets_tid q hq
  have wf := m.carries.packets_wf q hq
  have data := packets_data _ q hq
  replace genuine := genuine.touch t.now
  simp only [← got_touch _ t.now] at got
  rw [← opened_eq] at genuine got
  have unseen : ((t.view m.tid).opened m.tid t.now).got q = false := by
    rw [← Bool.not_eq_true, got q hq]
    exact new
  obtain ⟨s, absorbed, takes⟩ := m.carries.absorb genuine hq
    (.inr unseen : t.reliable.isSome = true ∨ _) t.now
  have received : ∀ p ∈ m.split.packets, s.got p = true ↔ p ∈ l ++ [q] := by
    intro p hp
    rw [takes.got p hp, got p hp, List.mem_append, List.mem_singleton]
  have full : s.full m.split = true ↔ m.arrived (l ++ [q]) := by
    rw [JSONReceiveState.full, List.all_eq_true]
    exact forall₂_congr received
  have keyed : s.tid = m.tid := by
    have opened : ((t.view m.tid).opened m.tid t.now).tid = m.tid := by
      rw [opened_eq]
      cases hs : (t.view m.tid).state with
      | none => rfl
      | some s => exact h.keyed s hs
    exact takes.tid.trans opened
  rw [← own] at fresh absorbed
  by_cases done : m.arrived (l ++ [q])
  · rw [if_pos (full.mpr done)] at absorbed
    obtain ⟨gone, last⟩ := Transport.deliver_last wf data (.inr fresh) live nodup absorbed
    rw [own] at gone last
    refine ⟨?_, fun part => absurd done part, fun _ => ⟨gone, fun listener mem => ?_⟩⟩
    · rw [gone]
      rintro s' ⟨⟩
    · rw [last listener mem, silent listener mem]
  · rw [if_neg fun all => done (full.mp all)] at absorbed
    have waits := Transport.deliver_waiting wf data (.inr fresh) live absorbed
    rw [own] at waits fresh
    rw [waits]
    refine ⟨?_, fun _ => ⟨fresh, takes.genuine, received, silent⟩, fun all => absurd all done⟩
    rintro s' ⟨⟩
    exact keyed

/-! ## All of them -/

/-- Where a transport stands to which the packets `l` of the messages `ms` have come. -/
structure Scattered (ms : List Message) (listeners : List Nat) (l : List JSONTransportPacket)
    (t : Transport) : Prop where
  listening : t.listeners = listeners
  stage : ∀ m ∈ ms, Stage m listeners l (t.view m.tid)
  others : ∀ tid, (∀ m ∈ ms, m.tid ≠ tid) →
    (t.view tid).state = none ∧ ∀ listener ∈ listeners, (t.view tid).told listener = []

namespace Scattered

theorem keyed (h : Scattered ms listeners l t) (tid : JSString) : t.Keyed tid := by
  intro s hs
  by_cases known : ∃ m ∈ ms, m.tid = tid
  · obtain ⟨m, hm, rfl⟩ := known
    exact (h.stage m hm).keyed s hs
  · have none := (h.others tid fun m hm e => known ⟨m, hm, e⟩).1
    rw [show (t.view tid).state = t.states.get? tid from rfl, hs] at none
    cases none

/-- Every tid is left alone, but for the settled memory. -/
theorem lapse (h : Scattered ms listeners l t) (listening : t'.listeners = t.listeners)
    (views : ∀ tid, View.Lapse tid (t.view tid) (t'.view tid)) : Scattered ms listeners l t' := by
  refine ⟨listening.trans h.listening, fun m hm => (h.stage m hm).lapse (views m.tid),
    fun tid other => ?_⟩
  obtain ⟨none, silent⟩ := h.others tid other
  exact ⟨(views tid).state_eq.trans none, fun listener mem =>
    (told_lapse (views tid) listener).trans (silent listener mem)⟩

theorem fireNack (h : Scattered ms listeners l t) (x : JSString) :
    Scattered ms listeners l (complete (t.fireNack x)) := by
  have views (tid : JSString) := Transport.view_fireNack (x := tid) (h.keyed x)
  refine ⟨(Transport.fireNack_receives t x).listeners.trans h.listening, fun m hm => ?_,
    fun tid other => ?_⟩
  · rw [views]
    split
    · exact (h.stage m hm).fireNack
    · exact h.stage m hm
  · obtain ⟨none, silent⟩ := h.others tid other
    rw [views]
    split
    · obtain ⟨state, _, told⟩ := fireNack_frame (t.view tid)
      exact ⟨state.trans none, fun listener mem => (told listener).trans (silent listener mem)⟩
    · exact ⟨none, silent⟩

theorem packet (tids : (ms.map Message.tid).Nodup) (h : Scattered ms listeners l t)
    (nodup : listeners.Nodup) (live : t.expiredPartials = []) {m : Message} (hm : m ∈ ms)
    {q : JSONTransportPacket} (hq : q ∈ m.split.packets) (new : q ∉ l) :
    Scattered ms listeners (l ++ [q]) (t.deliver q.wire) := by
  have own : q.tid = m.tid := m.carries.packets_tid q hq
  have other {tid : JSString} (ne : tid ≠ m.tid) :
      View.Lapse tid (t.view tid) ((t.deliver q.wire).view tid) := by
    apply Transport.deliver_other
    · rw [readPacket_wire (m.carries.packets_wf q hq)]
      rintro p ⟨⟩
      rw [own]
      exact ne.symm
    · rw [live]
      simp
  refine ⟨(Transport.deliver_fixed t q.wire).listeners.trans h.listening, fun m' hm' => ?_,
    fun tid unknown => ?_⟩
  · by_cases e : m' = m
    · subst e
      have stage := h.stage m' hm'
      rw [← h.listening] at stage nodup ⊢
      exact stage.packet nodup live hq new
    · have ne : m'.tid ≠ m.tid := fun same => e (Message.eq_of_tid tids hm' hm same)
      refine ((h.stage m' hm').lapse (other ne)).of_arrived fun p hp => ?_
      have : p ≠ q := fun same => Message.arrived_other tids hm hm' e hq (same ▸ hp)
      rw [List.mem_append, List.mem_singleton, or_iff_left this]
  · obtain ⟨none, silent⟩ := h.others tid unknown
    have lapse := other (unknown m hm).symm
    exact ⟨lapse.state_eq.trans none, fun listener mem =>
      (told_lapse lapse listener).trans (silent listener mem)⟩

theorem run (tids : (ms.map Message.tid).Nodup) (nodup : listeners.Nodup) {is : List Input}
    (run : Run Transport.input Unexpired t is t') {ps : List JSONTransportPacket}
    (texts : is.filterMap Input.text? = ps.map JSONTransportPacket.wire) (once : ps.Nodup)
    (own : ∀ q ∈ ps, ∃ m ∈ ms, q ∈ m.split.packets) (h : Scattered ms listeners [] t) :
    Scattered ms listeners ps t' := by
  apply run_arrivals (Scattered ms listeners) _ _ _ _ (fun _ _ h => h) run texts
    (List.nil_append ps) h
  · intro l t q h live pre
    obtain ⟨hps, new⟩ := fresh_of_prefix once pre
    obtain ⟨m, hm, hq⟩ := own q hps
    exact h.packet tids nodup live hm hq new
  · intro l t x h _ _
    exact h.fireNack x
  · intro l t h live
    apply h.lapse Transport.receives_cleanup.listeners
    intro tid
    apply Transport.view_cleanup_live
    rw [live]
    exact List.not_mem_nil
  · intro l t n h
    exact h.lapse rfl fun _ => .keep

end Scattered

theorem scattered_start (ms : List Message) (options : SplitOptions) (partialTtlMs now : Nat)
    (mode : Option ReliableOptions) (listeners : List Nat) :
    Scattered ms (Transport.listening options partialTtlMs mode now listeners).listeners []
      (.listening options partialTtlMs mode now listeners) := by
  obtain ⟨states, settled, timers, log⟩ := listening_idle options partialTtlMs mode now listeners
  have blank (tid : JSString) : (Transport.listening options partialTtlMs mode now listeners).view
      tid = ⟨none, none, false, []⟩ := by
    simp [Transport.view, states, settled, timers, log]
  refine ⟨rfl, fun m _ => ?_, fun tid _ => ?_⟩
  · rw [blank]
    refine ⟨by rintro s ⟨⟩, fun _ => ⟨rfl, genuine_fresh _ _ _, fun q hq => ?_, fun _ _ => rfl⟩,
      fun all => ?_⟩
    · rcases mem_splitPackets.mp hq with rfl | ⟨c, _, rfl⟩ | rfl <;>
        simp [JSONReceiveState.fresh, JSONReceiveState.chunk?]
    · cases all (.manifest m.split.manifest) (mem_splitPackets.mpr (.inl rfl))
  · rw [blank]
    exact ⟨rfl, fun _ _ => rfl⟩

/-! ## What a listener hears in the end -/

/-- Lists of keyed values that agree on every key are permutations of each other. -/
theorem perm_of_keys {α β : Type} [DecidableEq α] [DecidableEq β] {a b : List (α × β)}
    (h : ∀ k, (a.filter fun p => p.1 = k).map Prod.snd = (b.filter fun p => p.1 = k).map Prod.snd) :
    a.Perm b := by
  have own (c : List (α × β)) (k : α) (x : β) :
      c.count (k, x) = ((c.filter fun p => p.1 = k).map Prod.snd).count x := by
    induction c with
    | nil => rfl
    | cons p c ih =>
      obtain ⟨k', x'⟩ := p
      by_cases hk : k' = k
      · subst hk
        rw [List.filter_cons_of_pos (by simp), List.map_cons, List.count_cons, List.count_cons, ih]
        simp
      · rw [List.filter_cons_of_neg (by simpa using hk), List.count_cons, ih]
        simp [hk]
  refine List.perm_iff_count.mpr fun ⟨k, x⟩ => ?_
  rw [own, own, h]

/-- With its tid, what a listener is told. -/
def Effect.told? (listener : Nat) : Effect → Option (JSString × Json)
  | .called tid data l => if l = listener then some (tid, data) else none
  | _ => none

theorem heard_told (t : Transport) (listener : Nat) :
    t.heard listener = (t.log.filterMap (Effect.told? listener)).map Prod.snd := by
  rw [Transport.heard, List.map_filterMap]
  congr 1
  funext e
  cases e with
  | called tid data l => by_cases h : l = listener <;> simp [Effect.heard?, Effect.told?, h]
  | _ => rfl

theorem told_view (t : Transport) (listener : Nat) (tid : JSString) :
    ((t.log.filterMap (Effect.told? listener)).filter fun p => p.1 = tid).map Prod.snd =
      (t.view tid).told listener := by
  rw [View.told, Transport.view, List.filterMap_filter, List.filter_filterMap, List.map_filterMap]
  congr 1
  funext e
  cases e with
  | called x data l =>
    by_cases h : l = listener <;> by_cases hx : x = tid <;>
      simp [Effect.heard?, Effect.told?, Effect.about, h, hx]
  | _ => simp [Effect.heard?, Effect.told?]

/-- **Many messages in any order, in either mode.** Every listener hears each of them
once, in some order. -/
theorem scattered_heard {options : SplitOptions} {partialTtlMs now : Nat}
    {mode : Option ReliableOptions} {is : List Input} {ps : List JSONTransportPacket}
    (tids : (ms.map Message.tid).Nodup) (order : ps.Perm (ms.flatMap (·.split.packets)))
    (texts : is.filterMap Input.text? = ps.map JSONTransportPacket.wire)
    (run : Run Transport.input Unexpired (.listening options partialTtlMs mode now listeners) is t)
    (mem : listener ∈ listeners) : (t.heard listener).Perm (ms.map Message.value) := by
  have nodup : (Transport.listening options partialTtlMs mode now listeners).listeners.Nodup :=
    onMessage_nodup listeners .nil
  have own : ∀ q ∈ ps, ∃ m ∈ ms, q ∈ m.split.packets := fun q hq =>
    List.mem_flatMap.mp (order.mem_iff.mp hq)
  have h := Scattered.run tids nodup run texts (order.nodup_iff.mpr (all_nodup tids)) own
    (scattered_start ms options partialTtlMs now mode _)
  have heard := onMessage_mem (t := .create options partialTtlMs mode now) listeners (.inl mem)
  have pairs : (t.log.filterMap (Effect.told? listener)).Perm (ms.map fun m => (m.tid, m.value)) := by
    apply perm_of_keys
    intro tid
    rw [told_view]
    by_cases known : ∃ m ∈ ms, m.tid = tid
    · obtain ⟨m, hm, rfl⟩ := known
      have arrived : m.arrived ps := fun q hq =>
        order.mem_iff.mpr (List.mem_flatMap.mpr ⟨m, hm, hq⟩)
      rw [((h.stage m hm).done arrived).2 listener heard, List.filter_map, List.map_map]
      have only : (ms.filter fun m' => m'.tid = m.tid) = [m] := by
        apply List.perm_singleton.mp
        apply (List.perm_ext_iff_of_nodup ((List.Nodup.of_map _ tids).filter _)
          (List.nodup_singleton m)).mpr
        intro m'
        rw [List.mem_filter, List.mem_singleton, decide_eq_true_eq]
        constructor
        · rintro ⟨hm', same⟩
          exact Message.eq_of_tid tids hm' hm same
        · rintro rfl
          exact ⟨hm, rfl⟩
      change [m.value] = (ms.filter fun m' => m'.tid = m.tid).map Message.value
      rw [only, List.map_singleton]
    · have none : ∀ p ∈ ms.map fun m => (m.tid, m.value), ¬ decide (p.1 = tid) = true := by
        intro p hp e
        obtain ⟨m, hm, rfl⟩ := List.mem_map.mp hp
        exact known ⟨m, hm, of_decide_eq_true e⟩
      rw [(h.others tid fun m hm e => known ⟨m, hm, e⟩).2 listener heard,
        List.filter_eq_nil_iff.mpr none, List.map_nil]
  rw [heard_told]
  exact (pairs.map Prod.snd).trans (by rw [List.map_map]; exact .refl _)

end LemonModel
