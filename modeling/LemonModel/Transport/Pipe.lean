import LemonModel.Base.Refine
import LemonModel.Transport.Paths

/-!
# Two plain transports and a wire

What a plain transport sends goes to another one over a wire that keeps its order, as a
WebSocket does. The two of them are a queue of messages: a message is in it once all of
its packets were handed to the network. A send that throws half way leaves packets that
come to nothing.
-/

namespace LemonModel

open Text

/-! ## Handing packets to the network -/

/-- The packet `network.send` was called with last. -/
def Transport.calling (t : Transport) : Option JSONTransportPacket :=
  match t.log with
  | .sent packet :: _ => some packet
  | _ => none

/-- A method whose first `returns` calls return, and whose next one throws, and the packets
of those that returned. -/
def handOver : Nat → Transport × Option Frame → Transport × List JSONTransportPacket
  | _, (t, none) => (t, [])
  | 0, (t, some f) => ((t.resume false f).1, [])
  | returns + 1, (t, some f) =>
    let (t', handed) := handOver returns (t.resume true f)
    (t', t.calling.toList ++ handed)

/-- `whole` and `tids` are a record: the values all of whose packets were handed over, and
the tids that were given out, the oldest first. -/
structure Pipe where
  sender : Transport
  wire : List JSString
  receiver : Transport
  whole : List JSValue
  tids : List JSString

inductive PipeEvent where
  /-- `send`; `network.send` throws after so many packets -/
  | send (data : JSValue) (ids : Ids) (returns : Nat)
  /-- what is first on the wire comes -/
  | deliver
  /-- time passes at the receiver -/
  | advance (ms : Nat)
  | cleanup
  | configure (options : SplitOptions) (partialTtlMs : Nat)

namespace Pipe

/-- Plain transports, the receiver with its listeners. -/
def start (options own : SplitOptions) (senderTtlMs partialTtlMs now : Nat)
    (listeners : List Nat) : Pipe :=
  ⟨.create options senderTtlMs none now, [], .listening own partialTtlMs none now listeners, [], []⟩

variable (p : Pipe)

def send (data : JSValue) (ids : Ids) (returns : Nat) : Pipe :=
  let (sender, handed) := handOver returns (p.sender.send data ids)
  match splitJSON data p.sender.options ids with
  | none => { p with sender := sender }
  | some split =>
    { p with
      sender := sender
      wire := p.wire ++ handed.map JSONTransportPacket.wire
      whole := if split.packets.length ≤ returns then p.whole ++ [data] else p.whole
      tids := p.tids ++ [split.tid] }

def step : PipeEvent → Option Pipe
  | .send data ids returns => some (p.send data ids returns)
  | .deliver =>
    match p.wire with
    | [] => none
    | text :: rest => some { p with wire := rest, receiver := p.receiver.deliver text }
  | .advance ms =>
    some { p with receiver := { p.receiver with now := p.receiver.now + ms } }
  | .cleanup => some { p with receiver := p.receiver.cleanup }
  | .configure options partialTtlMs =>
    some { p with
      sender := { p.sender with options := options, partialTtlMs := partialTtlMs } }

end Pipe

/-! ## The sender -/

theorem handOver_plain {t : Transport} (plain : t.reliable = none)
    (packets : List JSONTransportPacket) (returns : Nat) :
    (handOver returns (t.plainRest packets)).2 = packets.take returns ∧
      (handOver returns (t.plainRest packets)).1.reliable = none ∧
      (handOver returns (t.plainRest packets)).1.options = t.options := by
  induction packets generalizing t returns with
  | nil => cases returns <;> exact ⟨by simp [Transport.plainRest, handOver], plain, rfl⟩
  | cons packet rest ih =>
    cases returns with
    | zero => exact ⟨rfl, plain, rfl⟩
    | succ returns =>
      obtain ⟨handed, reliable, options⟩ := @ih (t.networkSend packet) plain returns
      refine ⟨?_, reliable, options⟩
      rw [List.take_succ_cons, ← handed]
      rfl

/-! ## The receiver -/

namespace Transport

variable {t : Transport} {x : JSString} {listener : Nat}

/-- What becomes of a plain transport when partial messages expire. -/
structure Purged (tids : List JSString) (t t' : Transport) : Prop where
  reliable : t'.reliable = none
  kept : ∀ x, x ∉ tids → t'.states.get? x = t.states.get? x
  none : ∀ x, t.states.get? x = none → t'.states.get? x = none
  heard : ∀ listener, t'.heard listener = t.heard listener

theorem purged (plain : t.reliable = none) (tids : List JSString) :
    Purged tids t (tids.foldl expirePartial t) := by
  induction tids generalizing t with
  | nil => exact ⟨plain, fun _ _ => rfl, fun _ h => h, fun _ => rfl⟩
  | cons tid tids ih =>
    have expired : t.expirePartial tid =
        (t.deleteState tid).emitError (some tid) (expiredReport tid) := by
      rw [expirePartial, plain]
    have first : Purged [tid] t (t.expirePartial tid) := by
      rw [expired]
      refine ⟨plain, fun x hx => ?_, fun x hx => ?_, fun _ => rfl⟩
      · exact Dict.get?_delete_ne _ (by simpa using hx)
      · show (t.states.delete tid).get? x = none
        rw [Dict.get?_delete]
        split
        · rfl
        · exact hx
    have rest := @ih (t.expirePartial tid) first.reliable
    refine ⟨rest.reliable, fun x hx => ?_, fun x hx => rest.none x (first.none x hx),
      fun listener => (rest.heard listener).trans (first.heard listener)⟩
    rw [List.mem_cons, not_or] at hx
    exact (rest.kept x hx.2).trans (first.kept x (by simpa using hx.1))

theorem purged_cleanup (plain : t.reliable = none) : Purged t.expiredPartials t t.cleanup := by
  have swept : t.sweep = t := by
    rw [sweep, plain]
    rfl
  rw [cleanup, swept]
  exact purged plain _

/-- A packet in a plain transport, partial messages having expired. -/
theorem deliver_purged {q : JSONTransportPacket} (plain : t.reliable = none) (wf : q.Wf)
    (data : q.isData) :
    t.deliver q.wire = complete ((t.cleanup.setState q.tid (t.cleanup.openState q.tid)).acceptRest
      q.tid (absorb false t.now (t.cleanup.openState q.tid) q)) := by
  have plain' : t.cleanup.reliable = none := (purged_cleanup plain).reliable
  have accepted : ¬ (t.reliable.isNone = true ∧ isControl q = true) := by
    cases q <;> simp_all [JSONTransportPacket.isData, isControl]
  rw [deliver, receive_read (readPacket_wire wf), if_neg accepted, acceptPacket_data data, plain]
  simp only [acceptPart_eq, getState, scheduleNack, setState, plain, plain', Option.isSome_none,
    Bool.false_eq_true, if_false]

/-- The packets `gone` of a message have come. -/
def Gathers (t : Transport) (m : Message) (gone : List JSONTransportPacket) : Prop :=
  Genuine m.split ((t.states.get? m.tid).getD (.fresh m.tid 0)) ∧
    ∀ q ∈ m.split.packets,
      ((t.states.get? m.tid).getD (.fresh m.tid 0)).got q = true ↔ q ∈ gone

theorem gathers_fresh (m : Message) (unknown : t.states.get? m.tid = none) : t.Gathers m [] := by
  rw [Gathers, unknown, Option.getD_none]
  refine ⟨genuine_fresh _ _ _, fun q hq => ?_⟩
  rcases mem_splitPackets.mp hq with rfl | ⟨c, _, rfl⟩ | rfl <;>
    simp [JSONReceiveState.fresh, JSONReceiveState.chunk?]

theorem Gathers.congr {t' : Transport} {m : Message} {gone : List JSONTransportPacket}
    (h : t.Gathers m gone) (same : t'.states.get? m.tid = t.states.get? m.tid) :
    t'.Gathers m gone := by
  rw [Gathers, same]
  exact h

/-- A packet of a message comes to a plain transport. -/
structure Takes (m : Message) (gone : List JSONTransportPacket) (q : JSONTransportPacket)
    (t t' : Transport) : Prop where
  reliable : t'.reliable = Option.none
  kept : ∀ x, x ≠ m.tid → x ∉ t.expiredPartials → t'.states.get? x = t.states.get? x
  none : ∀ x, x ≠ m.tid → t.states.get? x = Option.none → t'.states.get? x = Option.none
  last : m.arrived (gone ++ [q]) → ∀ listener ∈ t.listeners,
    t'.heard listener = m.value :: t.heard listener
  more : ¬ m.arrived (gone ++ [q]) →
    t'.Gathers m (gone ++ [q]) ∧ ∀ listener, t'.heard listener = t.heard listener

theorem takes_packet {m : Message} {gone : List JSONTransportPacket} {q : JSONTransportPacket}
    (plain : t.reliable = none) (nodup : t.listeners.Nodup) (alive : m.tid ∉ t.expiredPartials)
    (h : t.Gathers m gone) (hq : q ∈ m.split.packets) (new : q ∉ gone) :
    Takes m gone q t (t.deliver q.wire) := by
  have own : q.tid = m.tid := m.carries.packets_tid q hq
  have fixed := receives_cleanup (t := t)
  have purged := purged_cleanup plain
  have opened := openState_eq t.cleanup m.tid
  rw [purged.kept m.tid alive] at opened
  have genuine := h.1.touch t.cleanup.now
  have got := h.2
  simp only [← got_touch _ t.cleanup.now] at got
  rw [← opened] at genuine got
  have unseen : (t.cleanup.openState m.tid).got q = false := by
    rw [← Bool.not_eq_true, got q hq]
    exact new
  obtain ⟨s, absorbed, takes⟩ := m.carries.absorb genuine hq (.inr unseen : false = true ∨ _) t.now
  have received : ∀ p ∈ m.split.packets, s.got p = true ↔ p ∈ gone ++ [q] := by
    intro p hp
    rw [takes.got p hp, got p hp, List.mem_append, List.mem_singleton]
  have full : s.full m.split = true ↔ m.arrived (gone ++ [q]) := by
    rw [JSONReceiveState.full, List.all_eq_true]
    exact forall₂_congr received
  have deliver := deliver_purged plain (m.carries.packets_wf q hq) (packets_data _ q hq)
  rw [own, absorbed] at deliver
  have reliable := (deliver_fixed t q.wire).reliable.trans plain
  by_cases done : m.arrived (gone ++ [q])
  · rw [if_pos (full.mpr done)] at deliver
    obtain ⟨states, logged, -⟩ :=
      acceptRest_done purged.reliable m.tid (t.cleanup.openState m.tid) s m.value
    rw [← deliver] at states logged
    refine ⟨reliable, fun x ne alive => ?_, fun x ne unknown => ?_, fun _ listener mem => ?_,
      fun part => absurd done part⟩
    · rw [states, if_neg ne, purged.kept x alive]
    · rw [states, if_neg ne, purged.none x unknown]
    · rw [← purged.heard listener, Transport.heard, logged, List.filterMap_append,
        List.filterMap_append, fixed.listeners, heard_once nodup mem]
      rfl
  · rw [if_neg fun all => done (full.mp all)] at deliver
    obtain ⟨states, logged, -⟩ :=
      acceptRest_waiting t.cleanup m.tid (t.cleanup.openState m.tid) s
    rw [← deliver] at states logged
    refine ⟨reliable, fun x ne alive => ?_, fun x ne unknown => ?_, fun all => absurd all done,
      fun _ => ⟨?_, fun listener => ?_⟩⟩
    · rw [states, if_neg ne, purged.kept x alive]
    · rw [states, if_neg ne, purged.none x unknown]
    · rw [Gathers, states, if_pos rfl, Option.getD_some]
      exact ⟨takes.genuine, received⟩
    · rw [← purged.heard listener, Transport.heard, logged]
      rfl

end Transport

/-! ## What is on the wire -/

/-- The first packets of a message are all of them once each one is there. -/
theorem Message.arrived_prefix (m : Message) {l : List JSONTransportPacket}
    (first : l <+: m.split.packets) : m.arrived l ↔ l = m.split.packets := by
  constructor
  · intro all
    obtain ⟨rest, eq⟩ := first
    have nodup := m.carries.packets_nodup
    rw [← eq] at nodup
    cases rest with
    | nil => rw [← eq, List.append_nil]
    | cons q rest =>
      have here : q ∈ l := all q (by simp [← eq])
      exact absurd rfl ((List.nodup_append.mp nodup).2.2 q here q List.mem_cons_self)
  · intro eq q hq
    rw [eq]
    exact hq

/-- A message on the wire: which of its packets came and which are still to come. The rest
was not handed over. -/
structure OnTheWay where
  message : Message
  gone : List JSONTransportPacket
  left : List JSONTransportPacket
  parts : gone ++ left <+: message.split.packets
  more : left ≠ []

namespace OnTheWay

variable (u : OnTheWay)

def tid : JSString := u.message.tid

/-- Its value, if all of it was handed over. -/
def value? : Option Json :=
  if u.gone ++ u.left = u.message.split.packets then some u.message.value else none

theorem values_snoc (pending : List OnTheWay) :
    (pending ++ [u]).filterMap value? = pending.filterMap value? ++ u.value?.toList := by
  rw [List.filterMap_append]
  cases h : u.value? <;> simp [h]

theorem nodup : (u.gone ++ u.left).Nodup :=
  u.message.carries.packets_nodup.sublist u.parts.sublist

end OnTheWay

/-- The messages on the wire, and what came of those before them. -/
structure Flows (listener : Nat) (p : Pipe) (pending : List OnTheWay) (taken : List Json) :
    Prop where
  sender : p.sender.reliable = none
  receiver : p.receiver.reliable = none
  nodup : p.receiver.listeners.Nodup
  listening : listener ∈ p.receiver.listeners
  wire : p.wire = pending.flatMap fun u => u.left.map JSONTransportPacket.wire
  apart : (pending.map OnTheWay.tid).Nodup
  known : ∀ u ∈ pending, u.tid ∈ p.tids
  unknown : ∀ x, x ∉ p.tids → p.receiver.states.get? x = none
  gathers : ∀ u ∈ pending, p.receiver.Gathers u.message u.gone
  heard : (p.receiver.heard listener).reverse = taken
  whole : (taken ++ pending.filterMap OnTheWay.value?).map JSValue.ofJson = p.whole

/-- Every message is an object under a tid of its own, and none expires at the receiver
while packets of it are on the wire. -/
def Ordered (p : Pipe) : PipeEvent → Prop
  | .send data ids _ => ∀ split, splitJSON data p.sender.options ids = some split →
      ∃ m : Message, data = .ofJson m.value ∧ m.split = split ∧ split.tid ∉ p.tids
  | .deliver | .cleanup => ∀ text ∈ p.wire, ∀ q ∈ readPacket text,
      q.tid ∉ p.receiver.expiredPartials
  | _ => True

namespace Flows

variable {listener : Nat} {p p' : Pipe} {pending : List OnTheWay} {taken : List Json}

theorem alive (h : Flows listener p pending taken)
    (ordered : ∀ text ∈ p.wire, ∀ q ∈ readPacket text, q.tid ∉ p.receiver.expiredPartials) :
    ∀ u ∈ pending, u.tid ∉ p.receiver.expiredPartials := by
  intro u hu
  obtain ⟨q, hq⟩ := List.exists_mem_of_ne_nil u.left u.more
  have own : q ∈ u.message.split.packets := u.parts.subset (List.mem_append_right _ hq)
  have there : q.wire ∈ p.wire := by
    rw [h.wire]
    exact List.mem_flatMap.mpr ⟨u, hu, List.mem_map_of_mem hq⟩
  have alive := ordered _ there q (readPacket_wire (u.message.carries.packets_wf q own))
  rw [u.message.carries.packets_tid q own] at alive
  exact alive

/-- A message is sent whose first packets are handed over. -/
theorem send (h : Flows listener p pending taken) {data : JSValue} {ids : Ids} (returns : Nat)
    (ordered : Ordered p (.send data ids returns)) :
    ∃ ds pending', exec Queue.step ⟨pending.filterMap OnTheWay.value?, taken⟩ ds =
        some ⟨pending'.filterMap OnTheWay.value?, taken⟩ ∧
      Flows listener (p.send data ids returns) pending' taken := by
  unfold Pipe.send Transport.send
  cases made : splitJSON data p.sender.options ids with
  | none =>
    have same : handOver returns (p.sender, none) = (p.sender, []) := by cases returns <;> rfl
    simp only [same]
    exact ⟨[], pending, rfl, h⟩
  | some split =>
    obtain ⟨m, rfl, rfl, fresh⟩ := ordered split made
    obtain ⟨handed, reliable, -⟩ := handOver_plain h.sender m.split.packets returns
    have some_ : 0 < m.split.packets.length := Nat.succ_pos _
    simp only [h.sender, handed]
    have known : ∀ u ∈ pending, u.tid ∈ p.tids ++ [m.split.tid] := fun u hu =>
      List.mem_append_left _ (h.known u hu)
    have unknown : ∀ x, x ∉ p.tids ++ [m.split.tid] → p.receiver.states.get? x = none := fun x hx =>
      h.unknown x fun hx' => hx (List.mem_append_left _ hx')
    cases returns with
    | zero =>
      refine ⟨[], pending, rfl, reliable, h.receiver, h.nodup, h.listening, ?_, h.apart, known,
        unknown, h.gathers, h.heard, ?_⟩
      · rw [List.take_zero, List.map_nil, List.append_nil]
        exact h.wire
      · rw [if_neg (by omega)]
        exact h.whole
    | succ n =>
      have more : m.split.packets.take (n + 1) ≠ [] := by
        rw [ne_eq, List.take_eq_nil_iff, not_or]
        exact ⟨Nat.succ_ne_zero n, List.ne_nil_of_length_pos some_⟩
      let u : OnTheWay := ⟨m, [], m.split.packets.take (n + 1), List.take_prefix _ _, more⟩
      have flows : ∀ whole,
          (taken ++ (pending ++ [u]).filterMap OnTheWay.value?).map JSValue.ofJson = whole →
          Flows listener { p with
            sender := (handOver (n + 1) (p.sender.plainRest m.split.packets)).1
            wire := p.wire ++ (m.split.packets.take (n + 1)).map JSONTransportPacket.wire
            whole := whole
            tids := p.tids ++ [m.split.tid] } (pending ++ [u]) taken := by
        intro whole eq
        refine ⟨reliable, h.receiver, h.nodup, h.listening, ?_, ?_, ?_, unknown, ?_, h.heard, eq⟩
        · rw [List.flatMap_append, ← h.wire, List.flatMap_singleton]
        · rw [List.map_append, List.nodup_append]
          refine ⟨h.apart, List.nodup_singleton _, ?_⟩
          rintro x hx y hy rfl
          obtain ⟨v, hv, rfl⟩ := List.mem_map.mp hx
          have same : v.tid = m.split.tid := List.mem_singleton.mp hy
          exact fresh (same ▸ h.known v hv)
        · rw [List.forall_mem_append]
          exact ⟨known, by simp [u, OnTheWay.tid, Message.tid]⟩
        · rw [List.forall_mem_append]
          refine ⟨h.gathers, fun v hv => ?_⟩
          rw [List.mem_singleton.mp hv]
          exact Transport.gathers_fresh m (h.unknown _ fresh)
      by_cases all : m.split.packets.length ≤ n + 1
      · have value : u.value? = some m.value := if_pos (List.take_of_length_le all)
        refine ⟨[.put m.value], pending ++ [u], ?_, ?_⟩
        · rw [Queue.exec_put, OnTheWay.values_snoc, value]
          rfl
        · rw [if_pos all]
          apply flows
          rw [OnTheWay.values_snoc, value, ← List.append_assoc, List.map_append, h.whole]
          rfl
      · have value : u.value? = none := by
          apply if_neg
          intro eq
          have length : (m.split.packets.take (n + 1)).length = m.split.packets.length :=
            congrArg List.length eq
          rw [List.length_take] at length
          omega
        have same : (pending ++ [u]).filterMap OnTheWay.value? =
            pending.filterMap OnTheWay.value? := by
          rw [OnTheWay.values_snoc, value]
          exact List.append_nil _
        refine ⟨[], pending ++ [u], by rw [same]; rfl, ?_⟩
        rw [if_neg all]
        apply flows
        rw [same]
        exact h.whole

/-- Partial messages expire of which nothing is on the wire. -/
theorem purge (h : Flows listener p pending taken) (plain : p.receiver.reliable = none)
    (alive : ∀ u ∈ pending, u.tid ∉ p.receiver.expiredPartials) :
    Flows listener { p with receiver := p.receiver.cleanup } pending taken := by
  have purged := Transport.purged_cleanup plain
  have fixed := Transport.receives_cleanup (t := p.receiver)
  refine ⟨h.sender, purged.reliable, ?_, ?_, h.wire, h.apart, h.known,
    fun x hx => purged.none x (h.unknown x hx),
    fun u hu => (h.gathers u hu).congr (purged.kept _ (alive u hu)), ?_, h.whole⟩
  · rw [fixed.listeners]
    exact h.nodup
  · rw [fixed.listeners]
    exact h.listening
  · rw [purged.heard]
    exact h.heard

/-- A packet of the first message came; `now` is what is still to come of that message. -/
theorem arrives {u : OnTheWay} {later : List OnTheWay} {q : JSONTransportPacket}
    {t : Transport} (h : Flows listener p (u :: later) taken) (now : List OnTheWay)
    (taken' : List Json) (alive : ∀ v ∈ later, v.tid ∉ p.receiver.expiredPartials)
    (takes : Transport.Takes u.message u.gone q p.receiver t)
    (same : t.listeners = p.receiver.listeners) (one : now.length ≤ 1)
    (own : ∀ v ∈ now, v.tid = u.tid) (gathers : ∀ v ∈ now, t.Gathers v.message v.gone)
    (heard : (t.heard listener).reverse = taken')
    (whole : (taken' ++ (now ++ later).filterMap OnTheWay.value?).map JSValue.ofJson = p.whole) :
    Flows listener { p with
      wire := (now ++ later).flatMap fun u => u.left.map JSONTransportPacket.wire
      receiver := t } (now ++ later) taken' := by
  have apart := List.nodup_cons.mp h.apart
  have known := h.known u List.mem_cons_self
  refine ⟨h.sender, takes.reliable, ?_, ?_, rfl, ?_, ?_, ?_, ?_, heard, whole⟩
  · rw [same]
    exact h.nodup
  · rw [same]
    exact h.listening
  · cases now with
    | nil => exact apart.2
    | cons v rest =>
      obtain rfl : rest = [] := List.length_eq_zero_iff.mp (by simpa using one)
      simpa [own v List.mem_cons_self] using h.apart
  · rw [List.forall_mem_append]
    exact ⟨fun v hv => own v hv ▸ known, fun v hv => h.known v (List.mem_cons_of_mem _ hv)⟩
  · intro x hx
    exact takes.none x (fun same => hx (same ▸ known)) (h.unknown x hx)
  · rw [List.forall_mem_append]
    refine ⟨gathers, fun v hv => ?_⟩
    apply (h.gathers v (List.mem_cons_of_mem _ hv)).congr
    apply takes.kept _ _ (alive v hv)
    intro (same : v.tid = u.tid)
    apply apart.1
    rw [← same]
    exact List.mem_map_of_mem hv

/-- The first packet on the wire comes. -/
theorem deliver {text : JSString} {rest : List JSString} (h : Flows listener p pending taken)
    (alive : ∀ u ∈ pending, u.tid ∉ p.receiver.expiredPartials) (first : p.wire = text :: rest) :
    ∃ ds pending' taken', exec Queue.step ⟨pending.filterMap OnTheWay.value?, taken⟩ ds =
        some ⟨pending'.filterMap OnTheWay.value?, taken'⟩ ∧
      Flows listener { p with wire := rest, receiver := p.receiver.deliver text } pending' taken' := by
  cases pending with
  | nil =>
    rw [h.wire] at first
    cases first
  | cons u later =>
    obtain ⟨q, left, comes⟩ := List.exists_cons_of_ne_nil u.more
    have wire := h.wire
    rw [first, List.flatMap_cons, comes, List.map_cons, List.cons_append] at wire
    obtain ⟨rfl, rfl⟩ := List.cons.inj wire
    have parts := u.parts
    have nodup := u.nodup
    have values := h.whole
    rw [comes] at parts nodup
    have hq : q ∈ u.message.split.packets := parts.subset (by simp)
    have new : q ∉ u.gone := fun hg =>
      (List.nodup_append.mp nodup).2.2 q hg q List.mem_cons_self rfl
    rw [List.append_cons] at parts
    have whole := u.message.arrived_prefix ((List.prefix_append _ _).trans parts)
    have takes := Transport.takes_packet h.receiver h.nodup (alive u List.mem_cons_self)
      (h.gathers u List.mem_cons_self) hq new
    have same := (Transport.deliver_fixed p.receiver q.wire).listeners
    have aliveLater : ∀ v ∈ later, v.tid ∉ p.receiver.expiredPartials := fun v hv =>
      alive v (List.mem_cons_of_mem _ hv)
    cases left with
    | nil =>
      have tail (taken' : List Json) := h.arrives [] taken' aliveLater takes same (Nat.zero_le 1)
        (fun v hv => nomatch hv) fun v hv => nomatch hv
      by_cases done : u.message.arrived (u.gone ++ [q])
      · have value : u.value? = some u.message.value := by
          rw [OnTheWay.value?, comes, if_pos (whole.mp done)]
        rw [List.filterMap_cons_some value] at values ⊢
        refine ⟨[.take], later, taken ++ [u.message.value], Queue.exec_take rfl, tail _ ?_ ?_⟩
        · rw [takes.last done listener h.listening, List.reverse_cons, h.heard]
        · rw [← values, List.append_assoc]
          rfl
      · have value : u.value? = none := by
          rw [OnTheWay.value?, comes, if_neg fun eq => done (whole.mpr eq)]
        rw [List.filterMap_cons_none value] at values ⊢
        refine ⟨[], later, taken, Queue.exec_nothing _, tail _ ?_ values⟩
        rw [(takes.more done).2]
        exact h.heard
    | cons q' left =>
      have part : ¬ u.message.arrived (u.gone ++ [q]) := by
        intro all
        have length := parts.length_le
        rw [← whole.mp all, List.length_append, List.length_cons] at length
        omega
      obtain ⟨gathers, heard⟩ := takes.more part
      let v : OnTheWay := ⟨u.message, u.gone ++ [q], q' :: left, parts, List.cons_ne_nil _ _⟩
      have value : v.value? = u.value? := by
        rw [OnTheWay.value?, OnTheWay.value?, comes, List.append_cons u.gone]
      have still : ([v] ++ later).filterMap OnTheWay.value? =
          (u :: later).filterMap OnTheWay.value? := by
        rw [List.singleton_append, List.filterMap_cons, List.filterMap_cons, value]
      rw [← still] at values ⊢
      refine ⟨[], [v] ++ later, taken, Queue.exec_nothing _, h.arrives [v] taken aliveLater takes
        same le_rfl ?_ ?_ ?_ values⟩
      · exact List.forall_mem_singleton.mpr rfl
      · exact List.forall_mem_singleton.mpr gathers
      · rw [heard]
        exact h.heard

/-- **The step lemma.** A step of the pipe is some steps of the queue. -/
theorem step {e : PipeEvent} (h : Flows listener p pending taken) (ordered : Ordered p e)
    (hstep : p.step e = some p') :
    ∃ ds pending' taken', exec Queue.step ⟨pending.filterMap OnTheWay.value?, taken⟩ ds =
        some ⟨pending'.filterMap OnTheWay.value?, taken'⟩ ∧ Flows listener p' pending' taken' := by
  cases e with
  | send data ids returns =>
    obtain rfl := Option.some.inj hstep
    obtain ⟨ds, pending', moved, flows⟩ := h.send returns ordered
    exact ⟨ds, pending', taken, moved, flows⟩
  | deliver =>
    cases first : p.wire with
    | nil =>
      rw [Pipe.step, first] at hstep
      cases hstep
    | cons text rest =>
      rw [Pipe.step, first] at hstep
      obtain rfl := Option.some.inj hstep
      exact h.deliver (h.alive ordered) first
  | advance ms =>
    obtain rfl := Option.some.inj hstep
    exact ⟨[], pending, taken, rfl, h.sender, h.receiver, h.nodup, h.listening, h.wire, h.apart,
      h.known, h.unknown, h.gathers, h.heard, h.whole⟩
  | cleanup =>
    obtain rfl := Option.some.inj hstep
    exact ⟨[], pending, taken, rfl, h.purge h.receiver (h.alive ordered)⟩
  | configure options partialTtlMs =>
    obtain rfl := Option.some.inj hstep
    exact ⟨[], pending, taken, rfl, h.sender, h.receiver, h.nodup, h.listening, h.wire, h.apart,
      h.known, h.unknown, h.gathers, h.heard, h.whole⟩

/-- A pipe and the queue it is. -/
theorem simulates (listener : Nat) : Simulates Pipe.step Ordered Queue.step fun p q =>
    ∃ pending, q.waiting = pending.filterMap OnTheWay.value? ∧
      Flows listener p pending q.taken where
  moves p e p' q := by
    rintro ⟨pending, waiting, flows⟩ ordered hstep
    obtain ⟨ds, pending', taken', moved, flows'⟩ := flows.step ordered hstep
    rw [← waiting] at moved
    exact ⟨ds, _, moved, pending', rfl, flows'⟩

theorem start {listeners : List Nat} (mem : listener ∈ listeners) (options own : SplitOptions)
    (senderTtlMs partialTtlMs now : Nat) :
    Flows listener (.start options own senderTtlMs partialTtlMs now listeners) [] [] := by
  obtain ⟨states, -, -, log⟩ := listening_idle own partialTtlMs none now listeners
  refine ⟨rfl, listening_mode _ _ _ _ _, onMessage_nodup listeners .nil,
    onMessage_mem listeners (.inl mem), rfl, List.nodup_nil, fun _ h => (nomatch h), ?_,
    fun _ h => (nomatch h), ?_, rfl⟩
  · intro x _
    rw [Pipe.start, states]
    rfl
  · rw [Pipe.start, Transport.heard, log]
    rfl

end Flows

/-- **Two plain transports are a queue.** Every listener is called with the messages that
were handed over whole, in the order they were sent, each once; what is not taken yet is on
the wire, and sends that throw half way put nothing into the queue. -/
theorem plain_transports_are_a_queue {options own : SplitOptions}
    {senderTtlMs partialTtlMs now : Nat} {listeners : List Nat} {es : List PipeEvent} {p : Pipe}
    (run : Run Pipe.step Ordered (.start options own senderTtlMs partialTtlMs now listeners) es p)
    {listener : Nat} (mem : listener ∈ listeners) :
    ∃ ds q, exec Queue.step .empty ds = some q ∧
      q.taken = (p.receiver.heard listener).reverse ∧
      (q.taken ++ q.waiting).map JSValue.ofJson = p.whole ∧ (p.wire = [] → q.waiting = []) := by
  have start := Flows.start mem options own senderTtlMs partialTtlMs now
  obtain ⟨ds, q, moved, pending, waiting, flows⟩ :=
    (Flows.simulates listener).run run (t := Queue.empty) ⟨[], rfl, start⟩
  refine ⟨ds, q, moved, flows.heard.symm, ?_, fun idle => ?_⟩
  · rw [waiting]
    exact flows.whole
  · rw [waiting]
    cases pending with
    | nil => rfl
    | cons u pending =>
      have wire := flows.wire
      rw [idle, List.flatMap_cons] at wire
      exact absurd (List.map_eq_nil_iff.mp (List.append_eq_nil_iff.mp wire.symm).1) u.more

/-! Three messages, of the second only the manifest. -/

def posted (n : Nat) : Json := .obj [(lit "a", .str (lit "h" ++ natText n))]

def postedIds (n : Nat) : Ids := ⟨natText n, natText⟩

theorem posted_splits : ∀ n : Fin 3,
    (splitJSON (.ofJson (posted n)) noteOptions (postedIds n)).isSome = true := by
  decide +kernel

theorem posted_plain : ∀ n : Fin 3, plain (posted n) = true := by
  decide +kernel

theorem posted_distinct : ∀ n : Fin 3,
    ((Option.get _ (posted_splits n)).manifest.refs.map JSONChunkRef.cid).Nodup := by
  decide +kernel

def postedMessage (n : Fin 3) : Message where
  value := posted n
  options := noteOptions
  ids := postedIds n
  split := Option.get _ (posted_splits n)
  wf := by simp [posted, Json.wf_obj]
  object := ⟨_, rfl⟩
  noProto := posted_plain n
  made := (Option.some_get _).symm
  distinct := posted_distinct n

def sendPosted (n : Fin 3) (returns : Nat) : PipeEvent :=
  .send (.ofJson (posted n)) (postedIds n) returns

def threePosted : List PipeEvent :=
  [sendPosted 0 4, sendPosted 1 1, .deliver, sendPosted 2 4, .cleanup] ++
    List.replicate 8 .deliver

/-- What is to be checked of a step with one of these messages. -/
def Checked (p : Pipe) : PipeEvent → Prop
  | .send _ ids _ => (p.sender.options.largeValueBytes = 1 ∧ p.sender.options.chunkBytes = 1 ∧
      p.sender.options.preferredSplitPaths = noteOptions.preferredSplitPaths ∧
      p.sender.options.split.isNone = true) ∧ ids.tid ∉ p.tids
  | .deliver | .cleanup => ∀ text ∈ p.wire, ∀ q ∈ readPacket text,
      q.tid ∉ p.receiver.expiredPartials
  | _ => True

instance (p : Pipe) (e : PipeEvent) : Decidable (Checked p e) := by
  unfold Checked
  split <;> infer_instance

theorem Checked.ordered {p : Pipe} {e : PipeEvent} (h : Checked p e)
    (known : e ∈ threePosted) : Ordered p e := by
  cases e with
  | send data ids returns =>
    obtain ⟨n, eq⟩ : ∃ n, ∃ returns', PipeEvent.send data ids returns = sendPosted n returns' := by
      simp only [threePosted, List.mem_append, List.mem_cons, List.mem_replicate] at known
      rcases known with (h | h | h | h | h | h) | ⟨-, h⟩
      · exact ⟨0, 4, h⟩
      · exact ⟨1, 1, h⟩
      · cases h
      · exact ⟨2, 4, h⟩
      · cases h
      · cases h
      · cases h
    obtain ⟨returns', eq⟩ := eq
    obtain ⟨rfl, rfl, -⟩ := PipeEvent.send.inj eq
    obtain ⟨⟨large, chunk, preferred, own⟩, fresh⟩ := h
    have options : p.sender.options = noteOptions := by
      generalize p.sender.options = options at large chunk preferred own
      obtain ⟨largeValueBytes, chunkBytes, preferredSplitPaths, cut⟩ := options
      obtain rfl : cut = none := Option.isNone_iff_eq_none.mp own
      exact congr (congr (congr (congrArg SplitOptions.mk large) chunk) preferred) rfl
    intro split made
    rw [options] at made
    have same : (postedMessage n).split = split :=
      Option.some.inj ((postedMessage n).made.symm.trans made)
    refine ⟨postedMessage n, rfl, same, ?_⟩
    rw [← same]
    have tid : ∀ n : Fin 3, (postedMessage n).split.tid = natText n := by decide +kernel
    rw [tid]
    exact fresh
  | deliver | cleanup => exact h
  | advance | configure => trivial

theorem plain_transports_are_a_queue_three :
    ∃ p, exec Pipe.step (.start noteOptions .default 0 DEFAULT_PARTIAL_TTL_MS 0 [0])
        threePosted = some p ∧ (p.receiver.heard 0).reverse = [posted 0, posted 2] ∧
      ∃ ds q, exec Queue.step .empty ds = some q ∧ q.taken = [posted 0, posted 2] ∧
        q.waiting = [] := by
  obtain ⟨p, checked⟩ := Run.of_allGood Pipe.step Checked
    (.start noteOptions .default 0 DEFAULT_PARTIAL_TTL_MS 0 [0]) threePosted (by decide +kernel)
  have run : Run Pipe.step Ordered _ threePosted p :=
    (run_iff_everywhere checked.exec_eq).mpr fun pre e t hpre ht =>
      ((run_iff_everywhere checked.exec_eq).mp checked pre e t hpre ht).ordered
        (hpre.subset (by simp))
  have idle : p.wire = [] := run.read (f := Pipe.wire) (by decide +kernel)
  have heard : (p.receiver.heard 0).reverse = [posted 0, posted 2] :=
    run.read (f := fun p => (p.receiver.heard 0).reverse) (by decide +kernel)
  obtain ⟨ds, q, moved, taken, -, none_⟩ :=
    plain_transports_are_a_queue run (List.mem_singleton.mpr rfl)
  exact ⟨p, run.exec_eq, heard, ds, q, moved, taken.trans heard, none_ idle⟩

end LemonModel
