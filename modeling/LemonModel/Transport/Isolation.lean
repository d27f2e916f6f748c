import LemonModel.Transport.Delivery
import LemonModel.Transport.Terminal

/-!
# Transfers do not interfere

Two runs of one transport: all inputs, and only those that carry `tid` or concern
every tid. What the transport holds and does about `tid` is the same in both, as
long as the full run loses nothing to a TTL or to the cap.
-/

namespace LemonModel

open Text

/-- The input carries `tid`, or no tid in particular. -/
def Input.concerns (tid : JSString) : Input → Bool
  | .packet text => (readPacket text).any fun p => p.tid = tid
  | .fireNack x => x = tid
  | .cleanup => true
  | .advance _ => true

def forgets (log : List Effect) : Bool :=
  log.any fun
    | .forgot _ => true
    | _ => false

/-- No partial is past its TTL, and nothing is dropped from the settled memory. -/
def Undiminished (t : Transport) (i : Input) : Prop :=
  t.expiredPartials = [] ∧ ∀ t' ∈ t.input i, forgets t'.log = false

instance (t : Transport) (i : Input) : Decidable (Undiminished t i) := by
  unfold Undiminished
  infer_instance

/-- `u` stands where `t` stands as far as `tid` can tell, and knows no other. -/
structure Alone (tid : JSString) (t u : Transport) : Prop where
  view : u.view tid = t.view tid
  partialTtlMs : u.partialTtlMs = t.partialTtlMs
  reliable : u.reliable = t.reliable
  listeners : u.listeners = t.listeners
  now : u.now = t.now
  others : ∀ y, y ≠ tid → u.view y = ⟨none, none, false, []⟩

variable {tid x : JSString} {t t' u : Transport} {i : Input}

theorem wasForgotten_of_forgets {log : List Effect} (h : forgets log = false) (x : JSString) :
    wasForgotten x log = false := by
  rw [forgets, List.any_eq_false] at h
  rw [wasForgotten, List.any_eq_false]
  intro e he
  have := h e he
  cases e <;> simp_all

theorem Lapse.exact {v w : View} (h : View.Lapse x v w) (kept : wasForgotten x w.log = false) :
    w = v := by
  cases h with
  | keep => rfl
  | lose _ => simp [View.lose, wasForgotten] at kept

theorem view_kept (h : forgets t.log = false) (x : JSString) :
    wasForgotten x (t.view x).log = false := by
  rw [forgotten_view]
  exact wasForgotten_of_forgets h x

namespace Alone

/-- No partial of the lone run is past its TTL. -/
theorem live (h : Alone tid t u) (live : t.expiredPartials = []) : u.expiredPartials = [] := by
  rw [List.eq_nil_iff_forall_not_mem]
  intro y hy
  obtain ⟨ttl, s, hs, late⟩ := Transport.mem_expiredPartials.mp hy
  by_cases hx : y = tid
  · subst hx
    have same : t.states.get? y = some s := (congrArg View.state h.view).symm.trans hs
    rw [h.partialTtlMs] at ttl late
    rw [h.now] at late
    have := Transport.mem_expiredPartials.mpr ⟨ttl, s, same, late⟩
    rw [live] at this
    cases this
  · have : u.states.get? y = none := congrArg View.state (h.others y hx)
    rw [hs] at this
    cases this

/-- The lone run has room to remember `tid` wherever the full run does. -/
theorem roomy (h : Alone tid t u) (room : ∀ o, t.reliable = some o → 0 < o.settledMaxEntries) :
    u.Roomy tid := by
  intro o hr
  refine ⟨room o (h.reliable ▸ hr), fun y e hy => ?_⟩
  by_contra hx
  have : u.settledReceived.get? y = none := congrArg View.memory (h.others y hx)
  rw [hy] at this
  cases this

end Alone

theorem room_of_memory (capped : t.Capped) (held : (t.view tid).memory.isSome) :
    ∀ o, t.reliable = some o → 0 < o.settledMaxEntries := by
  intro o hr
  have bound := capped o hr
  obtain ⟨e, he⟩ := Option.isSome_iff_exists.mp held
  have : t.settledReceived.size ≠ 0 := by
    intro empty
    have := Dict.size_eq_zero.mp empty tid
    rw [show t.settledReceived.get? tid = some e from he] at this
    cases this
  omega

/-- Whatever comes for `tid`, its state stays its own. -/
theorem keyed_accept {v : View} (mode : Option ReliableOptions) (now : Nat) (listeners : List Nat)
    (p : JSONTransportPacket) (h : ∀ s, v.state = some s → s.tid = tid) :
    ∀ s, (v.accept mode now listeners tid p).state = some s → s.tid = tid := by
  have opened : (v.opened tid now).tid = tid := by
    unfold View.opened
    cases hs : v.state with
    | none => rfl
    | some s => exact h s hs
  have kept := absorb_tid mode.isSome now (v.opened tid now) p
  have heard : ∀ (ls : List Nat) (w : View) data, (w.heard tid data ls).state = w.state := by
    intro ls
    induction ls with
    | nil => exact fun _ _ => rfl
    | cons l ls ih => exact fun w data => ih ((w.record _).record _) data
  intro s hs
  unfold View.accept at hs
  cases ha : absorb mode.isSome now (v.opened tid now) p with
  | mk s' r =>
    obtain ⟨reports, data⟩ := r
    rw [ha] at hs kept
    cases data with
    | none =>
      obtain rfl : s' = s := Option.some.inj hs
      exact kept.trans opened
    | some data =>
      simp only [View.acknowledged] at hs
      split at hs
      · rw [heard] at hs
        cases hs
      · simp only [View.record, heard] at hs
        cases hs

theorem keyed_deliver {v : View} (mode : Option ReliableOptions) (now : Nat) (listeners : List Nat)
    (p : JSONTransportPacket) (h : ∀ s, v.state = some s → s.tid = tid) :
    ∀ s, (v.deliver mode now listeners tid p).state = some s → s.tid = tid := by
  intro s hs
  unfold View.deliver at hs
  split at hs
  · unfold View.failed at hs
    split at hs
    · exact h s hs
    · cases hs
  · exact h s hs
  · exact h s hs
  · exact h s hs
  · exact h s hs
  · exact keyed_accept none now listeners p h s hs
  · split at hs
    · split at hs <;> exact h s hs
    · exact keyed_accept _ now listeners p h s hs

/-! ## One input -/

theorem alone_packet {text : JSString} (h : Alone tid t u) (capped : t.Capped)
    (good : Undiminished t (.packet text)) {p : JSONTransportPacket}
    (hp : readPacket text = some p) (hx : p.tid = tid) :
    Alone tid (t.deliver text) (u.deliver text) := by
  subst hx
  have live := good.1
  have kept := good.2 _ rfl
  have live' := h.live live
  have fixed := Transport.deliver_fixed t text
  have fixed' := Transport.deliver_fixed u text
  have full : (t.deliver text).view p.tid =
      (t.view p.tid).deliver t.reliable t.now t.listeners p.tid p := by
    rcases Transport.deliver_self hp live with eq | ⟨_, lost, _⟩
    · exact eq
    · rw [view_kept kept] at lost
      cases lost
  have lone : (u.deliver text).view p.tid =
      (t.view p.tid).deliver t.reliable t.now t.listeners p.tid p := by
    have self := Transport.deliver_self hp live'
    rw [h.view, h.reliable, h.now, h.listeners] at self
    rcases self with eq | ⟨held, _, cause⟩
    · exact eq
    · rw [← full] at held
      have room := room_of_memory (Transport.capped_deliver live capped) held
      rw [fixed.reliable] at room
      exact absurd (h.roomy room) cause
  refine ⟨lone.trans full.symm, ?_, ?_, ?_, ?_, fun y hy => ?_⟩
  · exact fixed'.partialTtlMs.trans (h.partialTtlMs.trans fixed.partialTtlMs.symm)
  · exact fixed'.reliable.trans (h.reliable.trans fixed.reliable.symm)
  · exact fixed'.listeners.trans (h.listeners.trans fixed.listeners.symm)
  · exact fixed'.now.trans (h.now.trans fixed.now.symm)
  · have lapse := @Transport.deliver_other y u text
      (by rw [hp]; rintro q ⟨⟩; exact Ne.symm hy) (by rw [live']; simp)
    rw [h.others y hy] at lapse
    exact Lapse.of_none lapse rfl

theorem alone_other {text : JSString} (h : Alone tid t u) (good : Undiminished t (.packet text))
    (hx : ∀ p ∈ readPacket text, p.tid ≠ tid) : Alone tid (t.deliver text) u := by
  have fixed := Transport.deliver_fixed t text
  have same : (t.deliver text).view tid = t.view tid := by
    have lapse := Transport.deliver_other hx (t := t) (by rw [good.1]; simp)
    exact Lapse.exact lapse (view_kept (good.2 _ rfl) tid)
  refine ⟨h.view.trans same.symm, h.partialTtlMs.trans fixed.partialTtlMs.symm,
    h.reliable.trans fixed.reliable.symm, h.listeners.trans fixed.listeners.symm,
    h.now.trans fixed.now.symm, h.others⟩

theorem alone_fireNack (h : Alone tid t u) (keyed : t.Keyed tid) :
    Alone tid (complete (t.fireNack tid)) (complete (u.fireNack tid)) := by
  have fixed := (Transport.fireNack_receives t tid).fixed
  have fixed' := (Transport.fireNack_receives u tid).fixed
  have keyed' : u.Keyed tid := fun s hs => keyed s ((congrArg View.state h.view).symm.trans hs)
  have full := Transport.view_fireNack (x := tid) keyed
  have lone := Transport.view_fireNack (x := tid) keyed'
  rw [if_pos rfl] at full lone
  refine ⟨by rw [full, lone, h.view], ?_, ?_, ?_, ?_, fun y hy => ?_⟩
  · exact fixed'.partialTtlMs.trans (h.partialTtlMs.trans fixed.partialTtlMs.symm)
  · exact fixed'.reliable.trans (h.reliable.trans fixed.reliable.symm)
  · exact fixed'.listeners.trans (h.listeners.trans fixed.listeners.symm)
  · exact fixed'.now.trans (h.now.trans fixed.now.symm)
  · rw [Transport.view_fireNack keyed', if_neg hy, h.others y hy]

theorem alone_fireNack_other (h : Alone tid t u) (hx : x ≠ tid) (keyed : t.Keyed x) :
    Alone tid (complete (t.fireNack x)) u := by
  have fixed := (Transport.fireNack_receives t x).fixed
  have same : (complete (t.fireNack x)).view tid = t.view tid := by
    rw [Transport.view_fireNack keyed, if_neg (Ne.symm hx)]
  refine ⟨h.view.trans same.symm, h.partialTtlMs.trans fixed.partialTtlMs.symm,
    h.reliable.trans fixed.reliable.symm, h.listeners.trans fixed.listeners.symm,
    h.now.trans fixed.now.symm, h.others⟩

theorem alone_cleanup (h : Alone tid t u) (good : Undiminished t .cleanup) :
    Alone tid t.cleanup u.cleanup := by
  have live := good.1
  have fixed := (Transport.receives_cleanup (t := t)).fixed
  have fixed' := (Transport.receives_cleanup (t := u)).fixed
  have full : t.cleanup.view tid = t.view tid :=
    Lapse.exact (Transport.view_cleanup_live (by rw [live]; simp)) (view_kept (good.2 _ rfl) tid)
  have lone : u.cleanup.view tid = u.view tid := by
    have lapse := Transport.view_cleanup_live (x := tid) (t := u) (by rw [h.live live]; simp)
    have memory : (u.cleanup.view tid).memory = (u.view tid).memory := by
      have swept : ∀ (w : Transport), w.expiredPartials = [] → (w.cleanup.view tid).memory =
          if w.reliable.isSome then
            (w.view tid).memory.filter fun e => decide (w.now < e.expiresAt)
          else (w.view tid).memory := by
        intro w hw
        rw [Transport.cleanup_sweep hw, Transport.sweep]
        split
        · exact Dict.get?_filter _ _ _
        · rfl
      have kept := swept t live
      rw [full] at kept
      rw [swept u (h.live live), h.reliable, h.now, h.view]
      exact kept.symm
    generalize u.cleanup.view tid = w at lapse memory
    cases lapse with
    | keep => rfl
    | lose held =>
      rw [← memory] at held
      cases held
  refine ⟨by rw [full, lone, h.view], ?_, ?_, ?_, ?_, fun y hy => ?_⟩
  · exact fixed'.partialTtlMs.trans (h.partialTtlMs.trans fixed.partialTtlMs.symm)
  · exact fixed'.reliable.trans (h.reliable.trans fixed.reliable.symm)
  · exact fixed'.listeners.trans (h.listeners.trans fixed.listeners.symm)
  · exact fixed'.now.trans (h.now.trans fixed.now.symm)
  · have lapse := Transport.view_cleanup_live (x := y) (t := u) (by rw [h.live live]; simp)
    rw [h.others y hy] at lapse
    exact Lapse.of_none lapse rfl

theorem keyed_input (good : Undiminished t i) (keyed : ∀ y, t.Keyed y) (h : t.input i = some t') :
    ∀ y, t'.Keyed y := by
  intro y s hs
  cases i with
  | packet text =>
    cases h
    have lapsed : (∀ p ∈ readPacket text, p.tid ≠ y) → s.tid = y := by
      intro other
      have lapse := Transport.deliver_other other (t := t) (by rw [good.1]; simp)
      exact keyed y s (lapse.state_eq.symm.trans hs)
    cases hp : readPacket text with
    | none => exact lapsed (by simp [hp])
    | some p =>
      by_cases hx : p.tid = y
      · subst hx
        rcases Transport.deliver_self hp good.1 with eq | ⟨_, lost, _⟩
        · exact keyed_deliver (v := t.view p.tid) _ _ _ p (keyed p.tid) s
            ((congrArg View.state eq).symm.trans hs)
        · rw [view_kept (good.2 _ rfl)] at lost
          cases lost
      · exact lapsed (by rw [hp]; rintro q ⟨⟩; exact hx)
  | fireNack x =>
    simp only [Transport.input] at h
    split at h
    · cases h
      have view := Transport.view_fireNack (x := y) (keyed x)
      have state : (complete (t.fireNack x)).states.get? y = t.states.get? y := by
        have := congrArg View.state view
        split at this
        · refine this.trans ?_
          unfold View.fireNack
          split
          · rfl
          · split <;> rfl
        · exact this
      exact keyed y s (state.symm.trans hs)
    · cases h
  | cleanup =>
    cases h
    have lapse := Transport.view_cleanup_live (x := y) (t := t) (by rw [good.1]; simp)
    exact keyed y s (lapse.state_eq.symm.trans hs)
  | advance ms =>
    cases h
    exact keyed y s hs

theorem capped_input (good : Undiminished t i) (capped : t.Capped) (h : t.input i = some t') :
    t'.Capped := by
  cases i with
  | packet text =>
    cases h
    exact Transport.capped_deliver good.1 capped
  | fireNack x =>
    simp only [Transport.input] at h
    split at h
    · cases h
      refine capped.of_eq (Transport.fireNack_receives t x).reliable ?_
      simp only [Transport.fireNack]
      split
      · rfl
      · split <;> rfl
    · cases h
  | cleanup =>
    cases h
    rw [Transport.cleanup_sweep good.1]
    exact Transport.capped_sweep capped
  | advance ms =>
    cases h
    exact capped

/-- **The step lemma.** The lone run takes the inputs that concern it, and can
do without the others. -/
theorem alone_input (h : Alone tid t u) (capped : t.Capped) (keyed : ∀ y, t.Keyed y)
    (good : Undiminished t i) (hstep : t.input i = some t') :
    if i.concerns tid then ∃ u', u.input i = some u' ∧ Alone tid t' u' else Alone tid t' u := by
  cases i with
  | packet text =>
    cases hstep
    cases hp : readPacket text with
    | none =>
      have other : ∀ p ∈ readPacket text, p.tid ≠ tid := by simp [hp]
      simpa [Input.concerns, hp] using alone_other h good other
    | some p =>
      by_cases hx : p.tid = tid
      · simp only [Input.concerns, hp, Option.any_some, hx, decide_true, if_true]
        exact ⟨_, rfl, alone_packet h capped good hp hx⟩
      · have other : ∀ p ∈ readPacket text, p.tid ≠ tid := by
          rw [hp]
          rintro q ⟨⟩
          exact hx
        simpa [Input.concerns, hp, hx] using alone_other h good other
  | fireNack x =>
    simp only [Transport.input] at hstep
    split at hstep
    · rename_i armed
      cases hstep
      by_cases hx : x = tid
      · subst hx
        have same : decide (x ∈ u.nackTimers) = decide (x ∈ t.nackTimers) := congrArg View.nack h.view
        have armed' : x ∈ u.nackTimers := by simpa [armed] using same
        simp only [Input.concerns, decide_true, if_true, Transport.input, armed', Option.some.injEq,
          exists_eq_left']
        exact alone_fireNack h (keyed x)
      · simpa [Input.concerns, hx] using alone_fireNack_other h hx (keyed x)
    · cases hstep
  | cleanup =>
    cases hstep
    exact ⟨_, rfl, alone_cleanup h good⟩
  | advance ms =>
    cases hstep
    exact ⟨_, rfl, h.view, h.partialTtlMs, h.reliable, h.listeners,
      congrArg (· + ms) h.now, h.others⟩

/-! ## Whole runs -/

theorem run_alone {is : List Input} (run : Run Transport.input Undiminished t is t')
    (capped : t.Capped) (keyed : ∀ y, t.Keyed y) (h : Alone tid t u) :
    ∃ u', exec Transport.input u (is.filter (Input.concerns tid)) = some u' ∧ Alone tid t' u' := by
  induction run generalizing u with
  | nil t => exact ⟨u, rfl, h⟩
  | @cons t t₁ t' i is good hstep _ ih =>
    have step := alone_input h capped keyed good hstep
    have capped' := capped_input good capped hstep
    have keyed' := keyed_input good keyed hstep
    by_cases hc : i.concerns tid = true
    · rw [if_pos hc] at step
      obtain ⟨u₁, hu, h₁⟩ := step
      obtain ⟨u', hexec, h'⟩ := ih capped' keyed' h₁
      refine ⟨u', ?_, h'⟩
      rw [List.filter_cons_of_pos hc, exec, hu, Option.bind_some, hexec]
    · rw [if_neg hc] at step
      obtain ⟨u', hexec, h'⟩ := ih capped' keyed' step
      refine ⟨u', ?_, h'⟩
      rw [List.filter_cons_of_neg hc, hexec]

/-- A new transport with these listeners. -/
def Transport.listening (options : SplitOptions) (partialTtlMs : Nat)
    (mode : Option ReliableOptions) (now : Nat) (listeners : List Nat) : Transport :=
  listeners.foldl onMessage (create options partialTtlMs mode now)

theorem listening_idle (options : SplitOptions) (partialTtlMs : Nat)
    (mode : Option ReliableOptions) (now : Nat) (listeners : List Nat) :
    (Transport.listening options partialTtlMs mode now listeners).states = .empty ∧
      (Transport.listening options partialTtlMs mode now listeners).settledReceived = .empty ∧
      (Transport.listening options partialTtlMs mode now listeners).nackTimers = [] ∧
      (Transport.listening options partialTtlMs mode now listeners).log = [] := by
  have kept : ∀ (ls : List Nat) (t : Transport), (ls.foldl Transport.onMessage t).states = t.states ∧
      (ls.foldl Transport.onMessage t).settledReceived = t.settledReceived ∧
      (ls.foldl Transport.onMessage t).nackTimers = t.nackTimers ∧
      (ls.foldl Transport.onMessage t).log = t.log := by
    intro ls
    induction ls with
    | nil => exact fun _ => ⟨rfl, rfl, rfl, rfl⟩
    | cons l ls ih =>
      intro t
      have same : (t.onMessage l).states = t.states ∧
          (t.onMessage l).settledReceived = t.settledReceived ∧
          (t.onMessage l).nackTimers = t.nackTimers ∧ (t.onMessage l).log = t.log := by
        unfold Transport.onMessage
        split <;> exact ⟨rfl, rfl, rfl, rfl⟩
      obtain ⟨h₁, h₂, h₃, h₄⟩ := ih (t.onMessage l)
      exact ⟨h₁.trans same.1, h₂.trans same.2.1, h₃.trans same.2.2.1, h₄.trans same.2.2.2⟩
  exact kept listeners _

/-- **Transfers do not interfere.** In either mode, and for any packets, nack
timers, cleanups and passing of time that lose nothing to a TTL or to the cap:
with the packets and nack timers of the other tids left out, the run goes through
as well, and ends with the same partial state, the same memory and nack timer,
and the same record of values, errors, acks and nacks for `tid`. -/
theorem transfers_do_not_interfere {options : SplitOptions} {partialTtlMs now : Nat}
    {mode : Option ReliableOptions} {listeners : List Nat} {is : List Input} (tid : JSString)
    (run : Run Transport.input Undiminished
      (.listening options partialTtlMs mode now listeners) is t) :
    ∃ u, exec Transport.input (.listening options partialTtlMs mode now listeners)
        (is.filter (Input.concerns tid)) = some u ∧
      u.states.get? tid = t.states.get? tid ∧
      u.settledReceived.get? tid = t.settledReceived.get? tid ∧
      (tid ∈ u.nackTimers ↔ tid ∈ t.nackTimers) ∧
      u.log.filter (Effect.about tid) = t.log.filter (Effect.about tid) := by
  obtain ⟨states, settled, timers, log⟩ := listening_idle options partialTtlMs mode now listeners
  have capped : (Transport.listening options partialTtlMs mode now listeners).Capped := by
    intro o _
    rw [settled]
    exact Nat.zero_le _
  have keyed : ∀ y, (Transport.listening options partialTtlMs mode now listeners).Keyed y := by
    intro y s hs
    rw [states] at hs
    cases hs
  have start : Alone tid (.listening options partialTtlMs mode now listeners)
      (.listening options partialTtlMs mode now listeners) := by
    refine ⟨rfl, rfl, rfl, rfl, rfl, fun y _ => ?_⟩
    simp [Transport.view, states, settled, timers, log]
  obtain ⟨u, hexec, alone⟩ := run_alone run capped keyed start
  have view := alone.view
  simp only [Transport.view, View.mk.injEq, decide_eq_decide] at view
  exact ⟨u, hexec, view⟩

/-! A message, with packets of another between its own. -/

theorem transfers_do_not_interfere_greeting :
    ∃ t u, exec Transport.input (.listening .default DEFAULT_PARTIAL_TTL_MS (some .default) 0 [0])
        [.packet greeting.wire, .packet (JSONTransportPacket.complete (lit "s")).wire,
          .packet (lit "\x7b"), .packet (JSONTransportPacket.complete (lit "t")).wire] = some t ∧
      exec Transport.input (.listening .default DEFAULT_PARTIAL_TTL_MS (some .default) 0 [0])
        [.packet greeting.wire, .packet (JSONTransportPacket.complete (lit "t")).wire] = some u ∧
      u.log.filter (Effect.about (lit "t")) = t.log.filter (Effect.about (lit "t")) := by
  obtain ⟨t, run⟩ := Run.of_allGood Transport.input Undiminished
    (.listening .default DEFAULT_PARTIAL_TTL_MS (some .default) 0 [0])
    [.packet greeting.wire, .packet (JSONTransportPacket.complete (lit "s")).wire,
      .packet (lit "\x7b"), .packet (JSONTransportPacket.complete (lit "t")).wire] (by decide +kernel)
  obtain ⟨u, hu, _, _, _, log⟩ := transfers_do_not_interfere (lit "t") run
  have own : ([.packet greeting.wire, .packet (JSONTransportPacket.complete (lit "s")).wire,
      .packet (lit "\x7b"), .packet (JSONTransportPacket.complete (lit "t")).wire] : List Input).map
        (Input.concerns (lit "t")) = [true, false, false, true] := by decide +kernel
  simp only [List.map_cons, List.map_nil, List.cons.injEq, and_true] at own
  simp only [List.filter_cons, own.1, own.2.1, own.2.2.1, own.2.2.2, if_true, Bool.false_eq_true,
    if_false, List.filter_nil] at hu
  exact ⟨t, u, run.exec_eq, hu, log⟩

end LemonModel
