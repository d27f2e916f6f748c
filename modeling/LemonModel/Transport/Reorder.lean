import LemonModel.Transport.Partial
import LemonModel.Transport.Isolation

/-!
# Any order of packets

A transport that is not reliable is given the packets of some messages in any
order, each of them once. `Received` says where it stands after a part of them;
every packet takes it one further.
-/

namespace LemonModel

open Text

/-- A message that was split: an object without an own `__proto__`, its chunk
ids distinct. -/
structure Message where
  value : Json
  options : SplitOptions
  ids : Ids
  split : JSONSplitResult
  wf : value.Wf
  object : ∃ props, value = .obj props
  noProto : plain value = true
  made : splitJSON (.ofJson value) options ids = some split
  distinct : (split.manifest.refs.map JSONChunkRef.cid).Nodup

namespace Message

def tid (m : Message) : JSString := m.split.tid

theorem carries (m : Message) : Carries m.split m.value := by
  obtain ⟨props, hv⟩ := m.object
  exact carries_split m.wf (by rw [hv]; rfl) m.noProto m.made m.distinct

/-- Every packet of the message is among `l`. -/
def arrived (m : Message) (l : List JSONTransportPacket) : Prop := ∀ q ∈ m.split.packets, q ∈ l

/-- What a transport does when the message is there, the newest effect first. -/
def transcript (m : Message) (listeners : List Nat) : List Effect :=
  (listeners.flatMap fun l => [.called m.tid m.value l, .returned m.tid m.value l]).reverse ++
    [.assembled m.tid m.value listeners]

end Message

/-- The packets `l` of the messages `ms` have come. -/
structure Received (ms : List Message) (listeners : List Nat) (l : List JSONTransportPacket)
    (t : Transport) : Prop where
  mode : t.reliable = none
  heard : t.listeners = listeners
  idle : t.nackTimers = []
  done : ∀ m ∈ ms, m.arrived l → t.states.get? m.tid = none
  waiting : ∀ m ∈ ms, ¬ m.arrived l →
    Genuine m.split ((t.states.get? m.tid).getD (.fresh m.tid 0)) ∧
      ∀ q ∈ m.split.packets, ((t.states.get? m.tid).getD (.fresh m.tid 0)).got q = true ↔ q ∈ l
  others : ∀ tid, (∀ m ∈ ms, m.tid ≠ tid) → t.states.get? tid = none
  log : ∃ ends : List Message, t.log = ends.flatMap (Message.transcript · listeners) ∧ ends.Nodup ∧
    ∀ m, m ∈ ends ↔ m ∈ ms ∧ m.arrived l

variable {ms : List Message} {listeners : List Nat} {l : List JSONTransportPacket} {t t' : Transport}

theorem packets_data (split : JSONSplitResult) : ∀ q ∈ split.packets, q.isData = true := by
  intro q hq
  rcases mem_splitPackets.mp hq with rfl | ⟨c, _, rfl⟩ | rfl <;> rfl

namespace Transport

theorem cleanup_plain (hr : t.reliable = none) (live : t.expiredPartials = []) : t.cleanup = t := by
  rw [cleanup_sweep live, sweep, hr]
  rfl

/-- A packet in a transport that is not reliable. -/
theorem deliver_plain {p : JSONTransportPacket} (hr : t.reliable = none)
    (live : t.expiredPartials = []) (hp : p.Wf) (hd : p.isData) :
    t.deliver p.wire = complete ((t.setState p.tid (t.openState p.tid)).acceptRest p.tid
      (absorb false t.now (t.openState p.tid) p)) := by
  have data : ¬ (t.reliable.isNone = true ∧ isControl p = true) := by
    cases p <;> simp_all [JSONTransportPacket.isData, isControl]
  rw [deliver, receive_read (readPacket_wire hp), if_neg data, acceptPacket_data hd, hr]
  simp only [acceptPart_eq, getState, cleanup_plain hr live, scheduleNack, setState, hr,
    Option.isSome_none, Bool.false_eq_true, if_false]

theorem log_heardBy (t : Transport) (tid : JSString) (data : Json) (ls : List Nat) :
    (t.heardBy tid data ls).log =
      (ls.flatMap fun l => [Effect.called tid data l, .returned tid data l]).reverse ++ t.log ∧
    (t.heardBy tid data ls).states = t.states ∧
    (t.heardBy tid data ls).nackTimers = t.nackTimers := by
  induction ls generalizing t with
  | nil => exact ⟨rfl, rfl, rfl⟩
  | cons l ls ih =>
    obtain ⟨log, kept⟩ := ih ((t.record (.called tid data l)).record (.returned tid data l))
    refine ⟨?_, kept⟩
    rw [heardBy, List.foldl_cons, ← heardBy, log]
    simp [record]

/-- Nothing is there yet: the state is kept. -/
theorem acceptRest_waiting (t : Transport) (tid : JSString) (s₀ s : JSONReceiveState) :
    (∀ x, (complete ((t.setState tid s₀).acceptRest tid (s, [], none))).states.get? x =
        if x = tid then some s else t.states.get? x) ∧
      (complete ((t.setState tid s₀).acceptRest tid (s, [], none))).log = t.log ∧
      (complete ((t.setState tid s₀).acceptRest tid (s, [], none))).nackTimers = t.nackTimers := by
  rw [complete_acceptRest]
  refine ⟨fun x => ?_, rfl, rfl⟩
  by_cases h : x = tid <;> simp [emitErrors, setState, h, Dict.get?_set]

/-- The message is there: the state is dropped and the listeners are called. -/
theorem acceptRest_done (hr : t.reliable = none) (tid : JSString) (s₀ s : JSONReceiveState)
    (data : Json) :
    (∀ x, (complete ((t.setState tid s₀).acceptRest tid (s, [], some data))).states.get? x =
        if x = tid then none else t.states.get? x) ∧
      (complete ((t.setState tid s₀).acceptRest tid (s, [], some data))).log =
        ((t.listeners.flatMap fun l => [Effect.called tid data l, .returned tid data l]).reverse ++
          [.assembled tid data t.listeners]) ++ t.log ∧
      (complete ((t.setState tid s₀).acceptRest tid (s, [], some data))).nackTimers =
        t.nackTimers := by
  rw [complete_acceptRest]
  have plain : ∀ u : Transport, u.reliable = none → u.acknowledged tid = u := by
    intro u hu
    simp only [acknowledged, hu]
  simp only
  rw [plain]
  swap
  · exact (receives_heardBy _ _ _ _).reliable.trans hr
  obtain ⟨log, states, timers⟩ := log_heardBy (((((t.setState tid s₀).setState tid s).emitErrors tid
    []).deleteState tid).record (.assembled tid data t.listeners)) tid data t.listeners
  refine ⟨fun x => ?_, ?_, timers⟩
  · refine (congrArg (Dict.get? · x) states).trans ?_
    by_cases h : x = tid <;>
      simp [emitErrors, setState, deleteState, record, h, Dict.get?_set, Dict.get?_delete]
  · refine log.trans ?_
    simp [emitErrors, setState, deleteState, record]

theorem openState_eq (t : Transport) (tid : JSString) :
    t.openState tid =
      { (t.states.get? tid).getD (.fresh tid 0) with updatedAt := t.now } := by
  unfold openState
  cases t.states.get? tid <;> rfl

end Transport

theorem Genuine.touch {split : JSONSplitResult} {s : JSONReceiveState} (g : Genuine split s)
    (now : Nat) : Genuine split { s with updatedAt := now } :=
  ⟨g.manifest, g.chunk, g.waiting⟩

theorem got_touch (s : JSONReceiveState) (now : Nat) (q : JSONTransportPacket) :
    { s with updatedAt := now }.got q = s.got q := by
  cases q <;> rfl

/-! ## One packet -/

theorem Message.eq_of_tid (tids : (ms.map Message.tid).Nodup) {m m' : Message} (hm : m ∈ ms)
    (hm' : m' ∈ ms) (h : m.tid = m'.tid) : m = m' :=
  List.inj_on_of_nodup_map tids hm hm' h

theorem Message.not_arrived {m : Message} {q : JSONTransportPacket} (hq : q ∈ m.split.packets)
    (fresh : q ∉ l) : ¬ m.arrived l := fun h => fresh (h q hq)

/-- The packet is of no other message. -/
theorem Message.arrived_other (tids : (ms.map Message.tid).Nodup) {m m' : Message} (hm : m ∈ ms)
    (hm' : m' ∈ ms) (ne : m' ≠ m) {q : JSONTransportPacket} (hq : q ∈ m.split.packets) :
    q ∉ m'.split.packets := by
  intro hq'
  have h := m.carries.packets_tid q hq
  have h' := m'.carries.packets_tid q hq'
  exact ne (Message.eq_of_tid tids hm' hm (h'.symm.trans h))

/-- **The step lemma.** -/
theorem received_packet (tids : (ms.map Message.tid).Nodup) (h : Received ms listeners l t)
    (live : t.expiredPartials = []) {m : Message} (hm : m ∈ ms) {q : JSONTransportPacket}
    (hq : q ∈ m.split.packets) (fresh : q ∉ l) :
    Received ms listeners (l ++ [q]) (t.deliver q.wire) := by
  have waiting := h.waiting m hm (Message.not_arrived hq fresh)
  have own : q.tid = m.tid := m.carries.packets_tid q hq
  have opened : t.openState m.tid =
      { (t.states.get? m.tid).getD (.fresh m.tid 0) with updatedAt := t.now } :=
    Transport.openState_eq t m.tid
  have genuine := waiting.1.touch t.now
  have got := waiting.2
  simp only [← got_touch _ t.now] at got
  rw [← opened] at genuine got
  have new : (t.openState m.tid).got q = false := by
    rw [← Bool.not_eq_true, got q hq]
    exact fresh
  obtain ⟨s', absorbed, takes⟩ := m.carries.absorb genuine hq (.inr new) t.now
  have full : s'.full m.split = true ↔ m.arrived (l ++ [q]) := by
    rw [JSONReceiveState.full, List.all_eq_true]
    refine forall₂_congr fun p hp => ?_
    rw [takes.got p hp, got p hp, List.mem_append, List.mem_singleton]
  have arrived_other : ∀ m' ∈ ms, m' ≠ m → (m'.arrived (l ++ [q]) ↔ m'.arrived l) := by
    intro m' hm' ne
    refine forall₂_congr fun p hp => ?_
    have : p ≠ q := fun e => Message.arrived_other tids hm hm' ne hq (e ▸ hp)
    simp [this]
  have tid_other : ∀ m' ∈ ms, m' ≠ m → m'.tid ≠ m.tid := fun m' hm' ne e =>
    ne (Message.eq_of_tid tids hm' hm e)
  obtain ⟨ends, log, nodup, mem⟩ := h.log
  have fixed := Transport.deliver_fixed t q.wire
  have deliver := Transport.deliver_plain h.mode live (m.carries.packets_wf q hq)
    (packets_data _ q hq)
  rw [own, absorbed] at deliver
  by_cases done : m.arrived (l ++ [q])
  · rw [if_pos (full.mpr done)] at deliver
    obtain ⟨states, logged, timers⟩ :=
      Transport.acceptRest_done h.mode m.tid (t.openState m.tid) s' m.value
    rw [← deliver] at states logged timers
    refine ⟨fixed.reliable.trans h.mode, fixed.listeners.trans h.heard, timers.trans h.idle,
      fun m' hm' hd => ?_, fun m' hm' hd => ?_, fun x hx => ?_, m :: ends, ?_, ?_, fun m' => ?_⟩
    · by_cases e : m' = m
      · rw [states, e, if_pos rfl]
      · rw [states, if_neg (tid_other m' hm' e)]
        exact h.done m' hm' ((arrived_other m' hm' e).mp hd)
    · have e : m' ≠ m := fun e => hd (e ▸ done)
      rw [states, if_neg (tid_other m' hm' e)]
      have before := h.waiting m' hm' fun hl => hd ((arrived_other m' hm' e).mpr hl)
      refine ⟨before.1, fun p hp => ?_⟩
      have ne : p ≠ q := fun e' => Message.arrived_other tids hm hm' e hq (e' ▸ hp)
      rw [before.2 p hp, List.mem_append, List.mem_singleton, or_iff_left ne]
    · rw [states, if_neg fun e => hx m hm e.symm]
      exact h.others x hx
    · rw [logged, log, h.heard, List.flatMap_cons]
      rfl
    · exact List.nodup_cons.mpr ⟨fun hmem => Message.not_arrived hq fresh ((mem m).mp hmem).2, nodup⟩
    · rw [List.mem_cons, mem]
      constructor
      · rintro (rfl | ⟨hm', hd⟩)
        · exact ⟨hm, done⟩
        · exact ⟨hm', fun p hp => List.mem_append_left _ (hd p hp)⟩
      · rintro ⟨hm', hd⟩
        by_cases e : m' = m
        · exact .inl e
        · exact .inr ⟨hm', (arrived_other m' hm' e).mp hd⟩
  · rw [if_neg fun hf => done (full.mp hf)] at deliver
    obtain ⟨states, logged, timers⟩ := Transport.acceptRest_waiting t m.tid (t.openState m.tid) s'
    rw [← deliver] at states logged timers
    refine ⟨fixed.reliable.trans h.mode, fixed.listeners.trans h.heard, timers.trans h.idle,
      fun m' hm' hd => ?_, fun m' hm' hd => ?_, fun x hx => ?_, ends, logged.trans log, nodup,
        fun m' => ?_⟩
    · have e : m' ≠ m := fun e => done (e ▸ hd)
      rw [states, if_neg (tid_other m' hm' e)]
      exact h.done m' hm' ((arrived_other m' hm' e).mp hd)
    · by_cases e : m' = m
      · subst e
        rw [states, if_pos rfl, Option.getD_some]
        refine ⟨takes.genuine, fun p hp => ?_⟩
        rw [takes.got p hp, got p hp, List.mem_append, List.mem_singleton]
      · rw [states, if_neg (tid_other m' hm' e)]
        have before := h.waiting m' hm' fun hl => hd ((arrived_other m' hm' e).mpr hl)
        refine ⟨before.1, fun p hp => ?_⟩
        have ne : p ≠ q := fun e' => Message.arrived_other tids hm hm' e hq (e' ▸ hp)
        rw [before.2 p hp, List.mem_append, List.mem_singleton, or_iff_left ne]
    · rw [states, if_neg fun e => hx m hm e.symm]
      exact h.others x hx
    · rw [mem]
      refine and_congr_right fun hm' => ?_
      by_cases e : m' = m
      · subst e
        exact iff_of_false (Message.not_arrived hq fresh) done
      · exact (arrived_other m' hm' e).symm

/-! ## Whole runs -/

/-- The packet an input brings. -/
def Input.text? : Input → Option JSString
  | .packet text => some text
  | _ => none

/-- No partial is past its TTL. -/
def Unexpired (t : Transport) (_ : Input) : Prop := t.expiredPartials = []

instance (t : Transport) (i : Input) : Decidable (Unexpired t i) := by
  unfold Unexpired
  infer_instance

/-- Time passes. -/
theorem received_advance (h : Received ms listeners l t) (ms' : Nat) :
    Received ms listeners l { t with now := t.now + ms' } :=
  ⟨h.mode, h.heard, h.idle, h.done, h.waiting, h.others, h.log⟩

/-- Packets that come one at a time, while no partial expires. -/
theorem run_arrivals (inv : List JSONTransportPacket → Transport → Prop)
    {all : List JSONTransportPacket}
    (packet : ∀ l t q, inv l t → t.expiredPartials = [] → l ++ [q] <+: all →
      inv (l ++ [q]) (t.deliver q.wire))
    {good : Transport → Input → Prop}
    (fire : ∀ l t x, inv l t → good t (.fireNack x) → x ∈ t.nackTimers →
      inv l (complete (t.fireNack x)))
    (cleanup : ∀ l t, inv l t → t.expiredPartials = [] → inv l t.cleanup)
    (advance : ∀ l t n, inv l t → inv l { t with now := t.now + n })
    (live : ∀ t i, good t i → t.expiredPartials = [])
    {is : List Input} (run : Run Transport.input good t is t') {ps : List JSONTransportPacket}
    (texts : is.filterMap Input.text? = ps.map JSONTransportPacket.wire) (whole : l ++ ps = all)
    (h : inv l t) : inv all t' := by
  induction run generalizing l ps with
  | nil t =>
    obtain rfl : ps = [] := List.map_eq_nil_iff.mp texts.symm
    obtain rfl : l = all := by simpa using whole
    exact h
  | @cons t t₁ t' i is hgood hstep _ ih =>
    cases i with
    | packet text =>
      cases hstep
      cases ps with
      | nil => cases texts
      | cons q ps =>
        change text :: is.filterMap Input.text? = q.wire :: ps.map JSONTransportPacket.wire at texts
        obtain ⟨rfl, rest⟩ := List.cons.inj texts
        rw [List.append_cons] at whole
        exact ih rest whole (packet l t q h (live t _ hgood) ⟨ps, whole⟩)
    | fireNack x =>
      simp only [Transport.input] at hstep
      split at hstep
      · rename_i armed
        cases hstep
        exact ih texts whole (fire l t x h hgood armed)
      · cases hstep
    | cleanup =>
      cases hstep
      exact ih texts whole (cleanup l t h (live t _ hgood))
    | advance n =>
      cases hstep
      exact ih texts whole (advance l t n h)

/-- A packet of a list without repetition is new. -/
theorem fresh_of_prefix {ps : List JSONTransportPacket} (nodup : ps.Nodup)
    {q : JSONTransportPacket} (pre : l ++ [q] <+: ps) : q ∈ ps ∧ q ∉ l := by
  have once : (l ++ [q]).Nodup := nodup.sublist pre.sublist
  refine ⟨pre.subset (by simp), fun hl => ?_⟩
  exact (List.nodup_append.mp once).2.2 q hl q List.mem_cons_self rfl

theorem run_received (tids : (ms.map Message.tid).Nodup) {is : List Input}
    (run : Run Transport.input Unexpired t is t') {ps : List JSONTransportPacket}
    (texts : is.filterMap Input.text? = ps.map JSONTransportPacket.wire) (nodup : ps.Nodup)
    (own : ∀ q ∈ ps, ∃ m ∈ ms, q ∈ m.split.packets) (h : Received ms listeners [] t) :
    Received ms listeners ps t' := by
  apply run_arrivals (Received ms listeners) _ _ _ _ (fun _ _ h => h) run texts
    (List.nil_append ps) h
  · intro l t q h live pre
    obtain ⟨hps, fresh⟩ := fresh_of_prefix nodup pre
    obtain ⟨m, hm, hq⟩ := own q hps
    exact received_packet tids h live hm hq fresh
  · intro l t x h _ armed
    rw [h.idle] at armed
    cases armed
  · intro l t h live
    rw [Transport.cleanup_plain h.mode live]
    exact h
  · intro l t n h
    exact received_advance h n

theorem listening_mode (own : SplitOptions) (partialTtlMs : Nat) (mode : Option ReliableOptions)
    (now : Nat) (listeners : List Nat) :
    (Transport.listening own partialTtlMs mode now listeners).reliable = mode := by
  have kept : ∀ (ls : List Nat) (t : Transport),
      (ls.foldl Transport.onMessage t).reliable = t.reliable := by
    intro ls
    induction ls with
    | nil => exact fun _ => rfl
    | cons l ls ih =>
      intro t
      refine (ih _).trans ?_
      unfold Transport.onMessage
      split <;> rfl
  exact kept listeners _

theorem received_nothing (ms : List Message) (options : SplitOptions) (partialTtlMs now : Nat)
    (listeners : List Nat) :
    Received ms (Transport.listening options partialTtlMs none now listeners).listeners []
      (.listening options partialTtlMs none now listeners) := by
  obtain ⟨states, _, timers, log⟩ := listening_idle options partialTtlMs none now listeners
  have fresh : ∀ m : Message, ¬ m.arrived [] := by
    intro m h
    have := h (.manifest m.split.manifest) (mem_splitPackets.mpr (.inl rfl))
    cases this
  refine ⟨listening_mode _ _ _ _ _, rfl, timers, fun m _ h => absurd h (fresh m), fun m _ _ => ?_,
    fun _ _ => ?_, [], by rw [log]; rfl, .nil, fun m => ?_⟩
  · rw [states]
    refine ⟨genuine_fresh _ _ _, fun q hq => ?_⟩
    rcases mem_splitPackets.mp hq with rfl | ⟨c, _, rfl⟩ | rfl <;>
      simp [JSONReceiveState.fresh, JSONReceiveState.chunk?]
  · rw [states]
    rfl
  · simp [fresh m]

theorem all_nodup (tids : (ms.map Message.tid).Nodup) :
    (ms.flatMap (·.split.packets)).Nodup := by
  rw [List.nodup_flatMap]
  refine ⟨fun m _ => m.carries.packets_nodup, ?_⟩
  have pairwise : ms.Pairwise fun m m' => m.tid ≠ m'.tid := by
    simpa [List.Nodup, List.pairwise_map] using tids
  refine pairwise.imp fun {m m'} ne => ?_
  intro q hq hq'
  exact ne ((m.carries.packets_tid q hq).symm.trans (m'.carries.packets_tid q hq'))

/-- **Any order delivers everything, once.** A transport that is not reliable is
given the packets of some messages with distinct tids, each packet once, in any
order and at any pace, and no partial expires. In the end it is left with no
partial state, and all it ever did is to rebuild each message once and call every
listener once with its value. -/
theorem any_order_delivers {ms : List Message} {options : SplitOptions} {partialTtlMs now : Nat}
    {listeners : List Nat} {is : List Input} {ps : List JSONTransportPacket}
    (tids : (ms.map Message.tid).Nodup) (order : ps.Perm (ms.flatMap (·.split.packets)))
    (texts : is.filterMap Input.text? = ps.map JSONTransportPacket.wire)
    (run : Run Transport.input Unexpired (.listening options partialTtlMs none now listeners) is t) :
    t.pendingCount = 0 ∧ ∃ ends : List Message, ends.Perm ms ∧ t.log = ends.flatMap
      (Message.transcript ·
        (Transport.listening options partialTtlMs none now listeners).listeners) := by
  have nodup : ps.Nodup := order.nodup_iff.mpr (all_nodup tids)
  have own : ∀ q ∈ ps, ∃ m ∈ ms, q ∈ m.split.packets := fun q hq =>
    List.mem_flatMap.mp (order.mem_iff.mp hq)
  have h := run_received tids run texts nodup own
    (received_nothing ms options partialTtlMs now listeners)
  have arrived : ∀ m ∈ ms, m.arrived ps := fun m hm q hq =>
    order.mem_iff.mpr (List.mem_flatMap.mpr ⟨m, hm, hq⟩)
  obtain ⟨ends, log, distinct, mem⟩ := h.log
  refine ⟨Dict.size_eq_zero.mpr fun tid => ?_, ends, ?_, log⟩
  · by_cases known : ∃ m ∈ ms, m.tid = tid
    · obtain ⟨m, hm, rfl⟩ := known
      exact h.done m hm (arrived m hm)
    · exact h.others tid fun m hm e => known ⟨m, hm, e⟩
  · refine (List.perm_ext_iff_of_nodup distinct (List.Nodup.of_map _ tids)).mpr fun m => ?_
    rw [mem]
    exact ⟨And.left, fun hm => ⟨hm, arrived m hm⟩⟩

/-! A string of two chunks, its packets from the last to the first. -/

def noteOptions : SplitOptions := { SplitOptions.default with largeValueBytes := 1, chunkBytes := 1 }

def noteIds : Ids := ⟨lit "t", fun _ => lit "c"⟩

theorem note_splits :
    (splitJSON (.ofJson (.obj [(lit "a", .str (lit "hi"))])) noteOptions noteIds).isSome = true := by
  decide +kernel

def note : Message where
  value := .obj [(lit "a", .str (lit "hi"))]
  options := noteOptions
  ids := noteIds
  split := (splitJSON (.ofJson (.obj [(lit "a", .str (lit "hi"))])) noteOptions noteIds).get note_splits
  wf := by simp [Json.wf_obj]
  object := ⟨_, rfl⟩
  noProto := by decide +kernel
  made := (Option.some_get note_splits).symm
  distinct := by decide +kernel

theorem any_order_delivers_note :
    ∃ t, exec Transport.input (.listening .default DEFAULT_PARTIAL_TTL_MS none 0 [0])
        (note.split.packets.reverse.map fun q => .packet q.wire) = some t ∧ t.pendingCount = 0 ∧
      t.log = note.transcript [0] := by
  obtain ⟨t, run⟩ := Run.of_allGood Transport.input Unexpired
    (.listening .default DEFAULT_PARTIAL_TTL_MS none 0 [0])
    (note.split.packets.reverse.map fun q => .packet q.wire) (by decide +kernel)
  obtain ⟨count, ends, perm, log⟩ := @any_order_delivers _ [note] _ _ _ _ _
    note.split.packets.reverse (by decide +kernel)
    (by simp)
    (by simp [List.filterMap_map, Function.comp_def, Input.text?]) run
  rw [List.perm_singleton.mp perm] at log
  rw [List.flatMap_singleton] at log
  exact ⟨t, run.exec_eq, count, log⟩

end LemonModel
