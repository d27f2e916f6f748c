import LemonModel.Transport.Moves

/-!
# What one event does to one tid being sent

The send side of a reliable transport, one tid at a time, as
`LemonModel.Transport.Moves` has the receive side: `step_outgoing` is the
inversion of `Config.step`.
-/

namespace LemonModel

open Text

/-- One tid on the send side. `attempts` are the loops of `attemptSend` running
for it, with the packets left, and `failing` the calls of `failSend`. -/
structure Outgoing where
  pending : Option PendingSend
  outcome : Option SettledEntry
  log : List Effect
  attempts : List (PendingSend × List JSONTransportPacket)
  failing : List JSString

def Frame.attempt? (tid : JSString) : Frame → Option (PendingSend × List JSONTransportPacket)
  | .attempt x pending rest => if x = tid then some (pending, rest) else none
  | _ => none

def Frame.fail? (tid : JSString) : Frame → Option JSString
  | .fail x reason => if x = tid then some reason else none
  | _ => none

namespace Transport

/-- The send side of a tid, over a stack of calls. -/
def outgoing (t : Transport) (stack : List Frame) (tid : JSString) : Outgoing :=
  ⟨t.pendingSend.get? tid, t.settledSend.get? tid, t.log.filter (Effect.outgoing tid),
    stack.filterMap (Frame.attempt? tid), stack.filterMap (Frame.fail? tid)⟩

end Transport

def Config.outgoing (c : Config) (tid : JSString) : Outgoing :=
  c.transport.outgoing c.stack tid

/-- Every packet a frame has left to send is a manifest, a chunk or a complete
packet. -/
def Frame.Sound : Frame → Prop
  | .attempt _ _ rest => ∀ p ∈ rest, p.isData
  | .resend rest => ∀ p ∈ rest, p.isData
  | .plain rest => ∀ p ∈ rest, p.isData
  | _ => True

def Config.Sound (c : Config) : Prop := ∀ f ∈ c.stack, f.Sound

theorem packets_isData (split : JSONSplitResult) : ∀ p ∈ split.packets, p.isData := by
  intro p hp
  simp only [JSONSplitResult.packets, List.mem_cons, List.mem_append, List.mem_map,
    List.not_mem_nil, or_false] at hp
  rcases hp with rfl | ⟨chunk, _, rfl⟩ | rfl <;> rfl

/-- The answer to a nack is from the message. -/
theorem nackAnswer_own (pending : PendingSend) (nack : JSONNackPacket) :
    ∀ p ∈ Transport.nackAnswer pending nack, p ∈ pending.split.packets := by
  intro p hp
  rcases List.mem_append.mp hp with hp | hp
  · rcases List.mem_append.mp hp with hp | hp
    · split at hp
      · rw [List.mem_singleton.mp hp]
        exact List.mem_cons_self
      · cases hp
    · obtain ⟨entry, _, hp⟩ := List.mem_flatMap.mp hp
      obtain ⟨index, _, hp⟩ := List.mem_filterMap.mp hp
      obtain ⟨chunk, first, rfl⟩ := Option.map_eq_some_iff.mp hp
      have own := List.mem_map_of_mem (f := JSONTransportPacket.chunk) (List.mem_of_find?_eq_some first)
      exact List.mem_cons_of_mem _ (List.mem_append_left _ own)
  · split at hp
    · rw [List.mem_singleton.mp hp]
      exact List.mem_cons_of_mem _ (List.mem_append_right _ List.mem_cons_self)
    · cases hp

theorem nackAnswer_isData (pending : PendingSend) (nack : JSONNackPacket) :
    ∀ p ∈ Transport.nackAnswer pending nack, p.isData := fun p hp =>
  packets_isData pending.split p (nackAnswer_own pending nack p hp)

/-- An entry of the settled memory of sends is as it was, or gone. -/
def Fades (a b : Option SettledEntry) : Prop := b = a ∨ b = none

/-- `failSend` is on: its `json:error` is out, its entry is not yet made. -/
def Outgoing.fail (g : Outgoing) (tid reason : JSString) : Outgoing :=
  { g with
    pending := none
    log := .sent (.error tid reason) :: g.log
    failing := reason :: g.failing }

/-- What sending `q` adds to the log of `tid`. -/
def sentFor (tid : JSString) (q : JSONTransportPacket) : List Effect :=
  if q.tid = tid then [.sent q] else []

/-- The end of `attemptSend`. -/
inductive Ended (o : ReliableOptions) (tid : JSString) (p : PendingSend) (g : Outgoing) :
    Outgoing → Prop where
  | last : o.maxAttempts ≤ p.attempts → Ended o tid p g (g.fail tid (lit "max attempts exceeded"))
  | more : ¬ o.maxAttempts ≤ p.attempts → Ended o tid p g g

/-- `attemptSend` for the pending send `p`. -/
inductive Attempted (o : ReliableOptions) (now : Nat) (isOpen : Bool) (tid : JSString)
    (p : PendingSend) (g : Outgoing) : Outgoing → Prop where
  | deadline : o.deadlineMs ≤ now - p.startedAt →
    Attempted o now isOpen tid p g (g.fail tid (lit "deadline exceeded"))
  | closed : ¬ o.deadlineMs ≤ now - p.startedAt → isOpen = false → Attempted o now isOpen tid p g g
  | sent (rest : List JSONTransportPacket) : ¬ o.deadlineMs ≤ now - p.startedAt → isOpen = true →
    p.split.packets = .manifest p.split.manifest :: rest →
    Attempted o now isOpen tid p g
      { g with
        pending := some { p with attempts := p.attempts + 1 }
        log := sentFor tid (.manifest p.split.manifest) ++ g.log
        attempts := ({ p with attempts := p.attempts + 1 }, rest) :: g.attempts }

inductive OutMove (o : ReliableOptions) (x : JSString) (c : Config) : Event → Outgoing → Prop where
  /-- whatever does not concern `x` -/
  | other {e : Event} {b : Option SettledEntry} : Fades (c.outgoing x).outcome b →
    OutMove o x c e { c.outgoing x with outcome := b }
  /-- a packet sent again for a nack -/
  | resent {e : Event} (p : JSONTransportPacket) : p.isData → p.tid = x →
    OutMove o x c e { c.outgoing x with log := .sent p :: (c.outgoing x).log }
  | begin {data : JSValue} {ids : Ids} {split : JSONSplitResult} {g : Outgoing} :
    splitJSON data c.transport.options ids = some split → split.tid = x →
    Attempted o c.transport.now c.transport.isOpen x (c.transport.newPending split)
      { c.outgoing x with
        pending := some (c.transport.newPending split)
        log := .started x data :: (c.outgoing x).log } g →
    OutMove o x c (.send data ids) g
  | tick {timer : Nat} {p : PendingSend} {g : Outgoing} : c.stack = [] →
    c.transport.resendTimers.get? timer = some x → (c.outgoing x).pending = some p →
    Attempted o c.transport.now c.transport.isOpen x p (c.outgoing x) g →
    OutMove o x c (.resendTick timer) g
  | next {p : PendingSend} {q : JSONTransportPacket} {rest : List JSONTransportPacket}
    {stack : List Frame} : c.stack = .attempt x p (q :: rest) :: stack → q.isData →
    OutMove o x c (.reply true)
      { c.outgoing x with
        log := sentFor x q ++ (c.outgoing x).log
        attempts := (p, rest) :: stack.filterMap (Frame.attempt? x) }
  | ended {b : Bool} {p : PendingSend} {rest : List JSONTransportPacket} {stack : List Frame}
    {g : Outgoing} : c.stack = .attempt x p rest :: stack →
    Ended o x p { c.outgoing x with attempts := stack.filterMap (Frame.attempt? x) } g →
    OutMove o x c (.reply b) g
  | failed {b : Bool} {reason : JSString} {stack : List Frame} {entry : Option SettledEntry} :
    c.stack = .fail x reason :: stack →
    Fades (some ⟨.fail, c.transport.now + o.settledTtlMs⟩) entry →
    OutMove o x c (.reply b)
      { c.outgoing x with
        outcome := entry
        log := .rejected x :: .error (some x)
          (report .failed (lit "@json[" ++ x ++ lit "] " ++ reason)) :: .settled x .fail ::
            (c.outgoing x).log
        failing := stack.filterMap (Frame.fail? x) }
  | acked {text : JSString} {p : PendingSend} {entry : Option SettledEntry} :
    readPacket text = some (.ack x) → (c.outgoing x).pending = some p →
    Fades (some ⟨.ok, c.transport.now + o.settledTtlMs⟩) entry →
    OutMove o x c (.receive text)
      { c.outgoing x with
        pending := none
        outcome := entry
        log := .resolved x :: .settled x .ok :: (c.outgoing x).log }
  | detached {p : PendingSend} {entry : Option SettledEntry} :
    (c.outgoing x).pending = some p →
    Fades (some ⟨.fail, c.transport.now + o.settledTtlMs⟩) entry →
    OutMove o x c .detach
      { c.outgoing x with
        pending := none
        outcome := entry
        log := .rejected x :: .settled x .fail :: (c.outgoing x).log }

variable {o : ReliableOptions} {x : JSString} {c c' : Config} {e : Event}

theorem OutMove.same : OutMove o x c e (c.outgoing x) := .other (.inl rfl)

/-! ## The pieces of a move -/

theorem Fades.of_within {a b : Dict JSString SettledEntry} (h : Transport.Within b a)
    (x : JSString) : Fades (a.get? x) (b.get? x) := by
  cases hb : b.get? x with
  | none => exact .inr rfl
  | some e => exact .inl (h x e hb).symm

theorem Fades.trans {a b c : Option SettledEntry} (h₁ : Fades a b) (h₂ : Fades b c) :
    Fades a c := by
  rcases h₂ with rfl | rfl
  · exact h₁
  · exact .inr rfl

namespace Transport

variable {t : Transport} {tid : JSString} {stack : List Frame}

theorem settleSend_self (o : ReliableOptions) (tid : JSString) (outcome : Outcome) :
    Fades (some ⟨outcome, t.now + o.settledTtlMs⟩)
      ((t.settleSend o tid outcome).settledSend.get? tid) := by
  have h := Fades.of_within (within_sweepSize (t.settledSend.set tid ⟨outcome, t.now + o.settledTtlMs⟩)
    o.settledMaxEntries t.now) tid
  rw [Dict.get?_set_self] at h
  exact h

theorem settleSend_other (o : ReliableOptions) (outcome : Outcome) (h : x ≠ tid) :
    Fades (t.settledSend.get? x) ((t.settleSend o tid outcome).settledSend.get? x) := by
  have h' := Fades.of_within (within_sweepSize (t.settledSend.set tid ⟨outcome, t.now + o.settledTtlMs⟩)
    o.settledMaxEntries t.now) x
  rw [Dict.get?_set_ne _ _ h] at h'
  exact h'

theorem attempt?_incoming {f : Frame} (h : f.incoming = true) (x : JSString) :
    f.attempt? x = none ∧ f.fail? x = none := by
  cases f <;> first | exact ⟨rfl, rfl⟩ | cases h

variable (stack) in
theorem outgoing_receives {r : Transport × Option Frame} (h : ReceivesTo t r) :
    ∃ b, Fades (t.outgoing stack x).outcome b ∧
      (Config.enter stack r).outgoing x = { t.outgoing stack x with outcome := b } := by
  obtain ⟨t', f⟩ := r
  have pending : t'.pendingSend = t.pendingSend := h.receives.pendingSend
  have log : t'.log.filter (Effect.outgoing x) = t.log.filter (Effect.outgoing x) :=
    h.receives.outgoing x
  refine ⟨_, .of_within h.receives.settledSend x, ?_⟩
  cases f with
  | none => simp [Config.enter, Config.outgoing, outgoing, pending, log]
  | some f =>
    obtain ⟨ha, hf⟩ := attempt?_incoming (h.incoming f rfl) x
    have attempts : (f :: stack).filterMap (Frame.attempt? x) = stack.filterMap (Frame.attempt? x) :=
      List.filterMap_cons_none ha
    have failing : (f :: stack).filterMap (Frame.fail? x) = stack.filterMap (Frame.fail? x) :=
      List.filterMap_cons_none hf
    simp [Config.enter, Config.outgoing, outgoing, pending, log, attempts, failing]

theorem outgoing_failSend (p : PendingSend) (reason : JSString) :
    (Config.enter stack (t.failSend tid p reason)).outgoing x =
      if x = tid then (t.outgoing stack x).fail tid reason else t.outgoing stack x := by
  have attempts : (Frame.fail tid reason :: stack).filterMap (Frame.attempt? x) =
      stack.filterMap (Frame.attempt? x) := List.filterMap_cons_none rfl
  by_cases h : x = tid
  · subst h
    have loud : Effect.outgoing x (.sent (.error x reason)) = true := by
      simp [Effect.outgoing, JSONTransportPacket.tid]
    have failing : (Frame.fail x reason :: stack).filterMap (Frame.fail? x) =
        reason :: stack.filterMap (Frame.fail? x) :=
      List.filterMap_cons_some (by simp [Frame.fail?])
    simp [Config.enter, Config.outgoing, outgoing, failSend, networkSend, record, loud, attempts,
      failing, Outgoing.fail]
  · have quiet : Effect.outgoing x (.sent (.error tid reason)) = false := by
      simp [Effect.outgoing, JSONTransportPacket.tid, Ne.symm h]
    have failing : (Frame.fail tid reason :: stack).filterMap (Frame.fail? x) =
        stack.filterMap (Frame.fail? x) :=
      List.filterMap_cons_none (by simp [Frame.fail?, Ne.symm h])
    simp [Config.enter, Config.outgoing, outgoing, failSend, networkSend, record, quiet, attempts,
      failing, h, Dict.get?_delete_ne _ h]

variable (stack) in
theorem outgoing_attemptEnd_self (p : PendingSend) :
    Ended o x p (t.outgoing stack x) ((Config.enter stack (t.attemptEnd o x p)).outgoing x) := by
  unfold attemptEnd
  split
  · rename_i last
    rw [outgoing_failSend, if_pos rfl]
    exact .last last
  · rename_i more
    exact .more more

theorem outgoing_attemptEnd_other (p : PendingSend) (h : x ≠ tid) :
    (Config.enter stack (t.attemptEnd o tid p)).outgoing x = t.outgoing stack x := by
  unfold attemptEnd
  split
  · rw [outgoing_failSend, if_neg h]
  · rfl

theorem outgoing_sent (q : JSONTransportPacket) (f : Frame) :
    (Config.enter stack (t.networkSend q, some f)).outgoing x =
      { t.outgoing (f :: stack) x with
        log := sentFor x q ++ (t.outgoing stack x).log } := by
  by_cases h : q.tid = x
  · simp [Config.enter, Config.outgoing, outgoing, networkSend, record, Effect.outgoing, sentFor, h]
  · simp [Config.enter, Config.outgoing, outgoing, networkSend, record, Effect.outgoing, sentFor, h]

theorem attempt?_self (tid : JSString) (p : PendingSend) (rest : List JSONTransportPacket) :
    (Frame.attempt tid p rest :: stack).filterMap (Frame.attempt? tid) =
      (p, rest) :: stack.filterMap (Frame.attempt? tid) :=
  List.filterMap_cons_some (by simp [Frame.attempt?])

theorem attempts_cons {c : Config} {p : PendingSend} {rest : List JSONTransportPacket}
    (hs : c.stack = .attempt x p rest :: stack) :
    (c.outgoing x).attempts = (p, rest) :: stack.filterMap (Frame.attempt? x) := by
  simp only [Config.outgoing, outgoing, hs]
  exact attempt?_self x p rest

theorem attempt?_other (h : x ≠ tid) (p : PendingSend) (rest : List JSONTransportPacket) :
    (Frame.attempt tid p rest :: stack).filterMap (Frame.attempt? x) =
      stack.filterMap (Frame.attempt? x) :=
  List.filterMap_cons_none (by simp [Frame.attempt?, Ne.symm h])

theorem fail?_attempt (p : PendingSend) (rest : List JSONTransportPacket) :
    (Frame.attempt tid p rest :: stack).filterMap (Frame.fail? x) =
      stack.filterMap (Frame.fail? x) :=
  List.filterMap_cons_none rfl

/-- Sending a data packet of some tid from a frame that is no `failSend` and no
attempt for `x`. -/
theorem outMove_sent {q : JSONTransportPacket} {f : Frame} (hq : q.isData)
    (ha : f.attempt? x = none) (hf : f.fail? x = none) {c : Config} {e : Event}
    (same : t.outgoing stack x = c.outgoing x) :
    OutMove o x c e ((Config.enter stack (t.networkSend q, some f)).outgoing x) := by
  have attempts : (f :: stack).filterMap (Frame.attempt? x) = stack.filterMap (Frame.attempt? x) :=
    List.filterMap_cons_none ha
  have failing : (f :: stack).filterMap (Frame.fail? x) = stack.filterMap (Frame.fail? x) :=
    List.filterMap_cons_none hf
  have eq : { t.outgoing (f :: stack) x with
      log := sentFor x q ++ (t.outgoing stack x).log } =
      { c.outgoing x with
        log := sentFor x q ++ (c.outgoing x).log } := by
    rw [← same]
    simp [outgoing, attempts, failing]
  rw [outgoing_sent, eq]
  by_cases h : q.tid = x
  · rw [sentFor, if_pos h]
    exact .resent q hq h
  · rw [sentFor, if_neg h]
    exact .same

theorem outgoing_attemptSend_self (p : PendingSend) :
    Attempted o t.now t.isOpen x p (t.outgoing stack x)
      ((Config.enter stack (t.attemptSend o x p)).outgoing x) := by
  unfold attemptSend
  split
  · rename_i deadline
    rw [outgoing_failSend, if_pos rfl]
    exact .deadline deadline
  · rename_i deadline
    split
    · rename_i closed
      exact .closed deadline (by simpa using closed)
    · rename_i opened
      simp only [JSONSplitResult.packets, attemptRest]
      rw [outgoing_sent]
      have sent := @Attempted.sent o t.now t.isOpen x p (t.outgoing stack x)
        (p.split.chunks.map .chunk ++ [.complete p.split.tid]) deadline (by simpa using opened) rfl
      simpa [outgoing, attempt?_self, fail?_attempt, JSONTransportPacket.tid] using sent

/-- An attempt for another tid. -/
theorem outMove_attemptSend_other {c : Config} {e : Event} (p : PendingSend) (h : x ≠ tid)
    (same : t.outgoing stack x = c.outgoing x) :
    OutMove o x c e ((Config.enter stack (t.attemptSend o tid p)).outgoing x) := by
  unfold attemptSend
  split
  · rw [outgoing_failSend, if_neg h, same]
    exact .same
  · split
    · rw [show (Config.enter stack (t, none)).outgoing x = c.outgoing x from same]
      exact .same
    · simp only [JSONSplitResult.packets, attemptRest]
      have kept : ∀ v, { t with pendingSend := t.pendingSend.set tid v }.outgoing stack x =
          c.outgoing x := by
        intro v
        rw [← same]
        simp [outgoing, Dict.get?_set_ne _ _ h]
      exact outMove_sent rfl (by simp [Frame.attempt?, Ne.symm h]) rfl (kept _)

theorem splitJSON_tid {data : JSValue} {options : SplitOptions} {ids : Ids}
    {split : JSONSplitResult} (h : splitJSON data options ids = some split) :
    split.tid = ids.tid := by
  rw [splitJSON, Option.bind_eq_bind, Option.bind_eq_some_iff] at h
  obtain ⟨_, _, h⟩ := h
  cases h
  rfl

variable (stack) in
/-- `handleAck` and the body of the loop of `detachReliable`, for the tid they
are about. -/
theorem outgoing_settled (p : PendingSend) (outcome : Outcome) {e : Effect}
    (he : e.outgoing tid = true) (f : Transport) (hf : f = ({ t with
      resendTimers := t.resendTimers.delete p.resendTimer
      pendingSend := t.pendingSend.delete tid }.settleSend o tid outcome).record e) :
    ∃ entry, Fades (some ⟨outcome, t.now + o.settledTtlMs⟩) entry ∧
      f.outgoing stack tid =
        { t.outgoing stack tid with
          pending := none
          outcome := entry
          log := e :: .settled tid outcome :: (t.outgoing stack tid).log } := by
  subst hf
  have loud : Effect.outgoing tid (.settled tid outcome) = true := by simp [Effect.outgoing]
  refine ⟨_, settleSend_self (t := { t with
      resendTimers := t.resendTimers.delete p.resendTimer
      pendingSend := t.pendingSend.delete tid }) o tid outcome, ?_⟩
  simp [outgoing, record, settleSend, he, loud]

variable (stack) in
theorem outgoing_settled_other (p : PendingSend) (outcome : Outcome) {e : Effect} (h : x ≠ tid)
    (he : e.outgoing x = false) (f : Transport) (hf : f = ({ t with
      resendTimers := t.resendTimers.delete p.resendTimer
      pendingSend := t.pendingSend.delete tid }.settleSend o tid outcome).record e) :
    ∃ entry, Fades (t.outgoing stack x).outcome entry ∧
      f.outgoing stack x = { t.outgoing stack x with outcome := entry } := by
  subst hf
  have quiet : Effect.outgoing x (.settled tid outcome) = false := by
    simp [Effect.outgoing, Ne.symm h]
  refine ⟨_, settleSend_other (t := { t with
      resendTimers := t.resendTimers.delete p.resendTimer
      pendingSend := t.pendingSend.delete tid }) o outcome h, ?_⟩
  simp [outgoing, record, settleSend, he, quiet, Dict.get?_delete_ne _ h]

variable (stack) in
theorem outgoing_detachSend_others {es : List (JSString × PendingSend)}
    (h : x ∉ es.map Prod.fst) :
    ∃ entry, Fades (t.outgoing stack x).outcome entry ∧
      (es.foldl (detachSend o) t).outgoing stack x =
        { t.outgoing stack x with outcome := entry } := by
  induction es generalizing t with
  | nil => exact ⟨_, .inl rfl, rfl⟩
  | cons e es ih =>
    rw [List.map_cons, List.mem_cons, not_or] at h
    have quiet : Effect.outgoing x (.rejected e.1) = false := by
      simp [Effect.outgoing, Ne.symm h.1]
    obtain ⟨a, ha, eqa⟩ := outgoing_settled_other (t := t) (o := o) stack e.2 .fail h.1
      quiet (detachSend o t e) rfl
    obtain ⟨b, hb, eqb⟩ := ih (t := detachSend o t e) h.2
    rw [eqa] at hb eqb
    exact ⟨b, ha.trans hb, eqb⟩

variable (stack) in
theorem outgoing_detachSend_self {es : List (JSString × PendingSend)} (h : x ∈ es.map Prod.fst)
    (nodup : (es.map Prod.fst).Nodup) :
    ∃ entry, Fades (some ⟨.fail, t.now + o.settledTtlMs⟩) entry ∧
      (es.foldl (detachSend o) t).outgoing stack x =
        { t.outgoing stack x with
          pending := none
          outcome := entry
          log := .rejected x :: .settled x .fail :: (t.outgoing stack x).log } := by
  induction es generalizing t with
  | nil => cases h
  | cons e es ih =>
    rw [List.map_cons, List.nodup_cons] at nodup
    by_cases hx : x = e.1
    · subst hx
      have loud : Effect.outgoing e.1 (.rejected e.1) = true := by simp [Effect.outgoing]
      obtain ⟨a, ha, eqa⟩ := outgoing_settled (t := t) (o := o) stack e.2 .fail loud
        (detachSend o t e) rfl
      obtain ⟨b, hb, eqb⟩ := outgoing_detachSend_others (t := detachSend o t e) (o := o)
        stack nodup.1
      rw [eqa] at hb eqb
      exact ⟨b, ha.trans hb, eqb⟩
    · have quiet : Effect.outgoing x (.rejected e.1) = false := by
        simp [Effect.outgoing, Ne.symm hx]
      obtain ⟨a, ha, eqa⟩ := outgoing_settled_other (t := t) (o := o) stack e.2 .fail hx
        quiet (detachSend o t e) rfl
      have member : x ∈ es.map Prod.fst := by
        rw [List.map_cons, List.mem_cons] at h
        exact h.resolve_left hx
      obtain ⟨b, hb, eqb⟩ := ih (t := detachSend o t e) member nodup.2
      rw [eqa] at eqb
      exact ⟨b, hb, eqb⟩

end Transport

/-! ## The moves of one event -/

open Transport

/-- An ack of a pending send. -/
theorem outgoing_acked {p : PendingSend} (hp : c.transport.pendingSend.get? x = some p) :
    ∃ a, Fades (some ⟨.ok, c.transport.now + o.settledTtlMs⟩) a ∧
      (Config.enter c.stack (c.transport.handleAck o x, none)).outgoing x =
        { c.outgoing x with
          pending := none
          outcome := a
          log := .resolved x :: .settled x .ok :: (c.outgoing x).log } := by
  have loud : Effect.outgoing x (.resolved x) = true := by simp [Effect.outgoing]
  exact outgoing_settled (t := c.transport) (o := o) c.stack p .ok loud (c.transport.handleAck o x)
    (by simp only [handleAck, hp])

theorem outMove_receive {text : JSString} (hr : c.transport.reliable = some o) :
    OutMove o x c (.receive text) ((Config.enter c.stack (c.transport.receive text)).outgoing x) := by
  rcases receive_sides c.transport text with h | ⟨o', ho, ⟨tid, read, eq⟩ | ⟨nack, read, eq⟩⟩
  · obtain ⟨b, hb, eq⟩ := outgoing_receives (x := x) c.stack h
    rw [eq]
    exact .other hb
  · obtain rfl : o = o' := Option.some.inj (hr.symm.trans ho)
    rw [eq]
    cases hp : c.transport.pendingSend.get? tid with
    | none =>
      simp only [handleAck, hp]
      exact .same
    | some p =>
      by_cases hx : x = tid
      · subst hx
        obtain ⟨a, ha, eqa⟩ := outgoing_acked (o := o) hp
        rw [eqa]
        exact .acked read hp ha
      · have quiet : Effect.outgoing x (.resolved tid) = false := by
          simp [Effect.outgoing, Ne.symm hx]
        obtain ⟨a, ha, eqa⟩ := outgoing_settled_other (t := c.transport) (o := o) c.stack p
          .ok hx quiet (c.transport.handleAck o tid) (by simp only [handleAck, hp])
        rw [show (Config.enter c.stack (c.transport.handleAck o tid, none)).outgoing x =
          (c.transport.handleAck o tid).outgoing c.stack x from rfl, eqa]
        exact .other ha
  · rw [eq]
    unfold handleNack
    split
    · exact .same
    · rename_i pending _
      have sound := nackAnswer_isData pending nack
      cases ha : nackAnswer pending nack with
      | nil => exact .same
      | cons q rest =>
        rw [ha] at sound
        exact outMove_sent (sound q List.mem_cons_self) rfl rfl rfl

theorem outMove_detach (hr : c.transport.reliable = some o) :
    OutMove o x c .detach
      (Config.outgoing { c with transport := c.transport.detach } x) := by
  have eq : Config.outgoing { c with transport := c.transport.detach } x =
      (c.transport.pendingSend.entries.foldl (detachSend o) c.transport).outgoing c.stack x := by
    simp only [Config.outgoing, detach, hr]
    rfl
  rw [eq]
  cases hp : c.transport.pendingSend.get? x with
  | none =>
    obtain ⟨b, hb, eqb⟩ := outgoing_detachSend_others (o := o) (t := c.transport) c.stack
      (Dict.get?_eq_none.mp hp)
    rw [eqb]
    exact .other hb
  | some p =>
    obtain ⟨b, hb, eqb⟩ := outgoing_detachSend_self (o := o) (t := c.transport) c.stack
      (Dict.mem_keys.mpr ⟨p, hp⟩) c.transport.pendingSend.nodup
    rw [eqb]
    exact .detached hp hb

/-- A send under its own tid. -/
theorem outgoing_sendReliable (data : JSValue) (split : JSONSplitResult) :
    Attempted o c.transport.now c.transport.isOpen split.tid (c.transport.newPending split)
      { c.outgoing split.tid with
        pending := some (c.transport.newPending split)
        log := .started split.tid data :: (c.outgoing split.tid).log }
      ((Config.enter c.stack (c.transport.sendReliable o data split)).outgoing split.tid) := by
  have loud : Effect.outgoing split.tid (.started split.tid data) = true := by
    simp [Effect.outgoing]
  have registered : (c.transport.register data split).outgoing c.stack split.tid =
      { c.outgoing split.tid with
        pending := some (c.transport.newPending split)
        log := .started split.tid data :: (c.outgoing split.tid).log } := by
    simp [Config.outgoing, Transport.outgoing, register, loud]
  rw [← registered]
  change Attempted o (c.transport.register data split).now (c.transport.register data split).isOpen
    _ _ _ _
  exact outgoing_attemptSend_self _

theorem outMove_send (data : JSValue) (ids : Ids) (hr : c.transport.reliable = some o) :
    OutMove o x c (.send data ids)
      ((Config.enter c.stack (c.transport.send data ids)).outgoing x) := by
  cases hs : splitJSON data c.transport.options ids with
  | none =>
    simp only [send, hs]
    exact .same
  | some split =>
    simp only [send, hs, hr, sendReliable]
    by_cases hx : x = split.tid
    · subst hx
      exact .begin hs rfl (outgoing_sendReliable data split)
    · apply outMove_attemptSend_other _ hx
      have quiet : Effect.outgoing x (.started split.tid data) = false := by
        simp [Effect.outgoing, Ne.symm hx]
      simp [Transport.outgoing, Config.outgoing, register, quiet, Dict.get?_set_ne _ _ hx]

theorem outMove_tick (timer : Nat) (hr : c.transport.reliable = some o) (idle : c.stack = []) :
    OutMove o x c (.resendTick timer)
      ((Config.enter c.stack (c.transport.resendTick timer)).outgoing x) := by
  cases ht : c.transport.resendTimers.get? timer with
  | none =>
    simp only [resendTick, hr, ht]
    exact .same
  | some tid =>
    cases hp : c.transport.pendingSend.get? tid with
    | none =>
      simp only [resendTick, hr, ht, hp]
      exact .same
    | some p =>
      simp only [resendTick, hr, ht, hp]
      by_cases hx : x = tid
      · subst hx
        exact .tick idle ht hp (outgoing_attemptSend_self p)
      · exact outMove_attemptSend_other p hx rfl

theorem outMove_failRest {tid reason : JSString} {rest : List Frame} (ok : Bool)
    (hs : c.stack = .fail tid reason :: rest) :
    OutMove o x c (.reply ok)
      ((Config.enter rest (c.transport.failRest o tid reason, none)).outgoing x) := by
  have attempts : c.stack.filterMap (Frame.attempt? x) = rest.filterMap (Frame.attempt? x) := by
    rw [hs]
    exact List.filterMap_cons_none rfl
  by_cases hx : x = tid
  · subst hx
    have logged : (c.transport.failRest o x reason).log.filter (Effect.outgoing x) =
        .rejected x :: .error (some x) (report .failed (lit "@json[" ++ x ++ lit "] " ++ reason)) ::
          .settled x .fail :: c.transport.log.filter (Effect.outgoing x) := by
      simp [failRest, settleSend, emitError, record, Effect.outgoing, report]
    have eq : (Config.enter rest (c.transport.failRest o x reason, none)).outgoing x =
        { c.outgoing x with
          outcome := (c.transport.settleSend o x .fail).settledSend.get? x
          log := .rejected x ::
            .error (some x) (report .failed (lit "@json[" ++ x ++ lit "] " ++ reason)) ::
              .settled x .fail :: (c.outgoing x).log
          failing := rest.filterMap (Frame.fail? x) } := by
      simp only [Config.outgoing, Config.enter, Transport.outgoing, logged, attempts]
      rfl
    rw [eq]
    exact .failed hs (settleSend_self _ _ _)
  · have failing : c.stack.filterMap (Frame.fail? x) = rest.filterMap (Frame.fail? x) := by
      rw [hs]
      exact List.filterMap_cons_none (by simp [Frame.fail?, Ne.symm hx])
    have logged : (c.transport.failRest o tid reason).log.filter (Effect.outgoing x) =
        c.transport.log.filter (Effect.outgoing x) := by
      simp [failRest, settleSend, emitError, record, Effect.outgoing, Ne.symm hx]
    have eq : (Config.enter rest (c.transport.failRest o tid reason, none)).outgoing x =
        { c.outgoing x with
          outcome := (c.transport.settleSend o tid .fail).settledSend.get? x } := by
      simp only [Config.outgoing, Config.enter, Transport.outgoing, logged, attempts, failing]
      rfl
    rw [eq]
    exact .other (settleSend_other _ _ hx)

theorem outMove_attempt {tid : JSString} {p : PendingSend} {after : List JSONTransportPacket}
    {rest : List Frame} (ok : Bool) (hr : c.transport.reliable = some o) (sound : c.Sound)
    (hs : c.stack = .attempt tid p after :: rest) :
    OutMove o x c (.reply ok)
      ((Config.enter rest (c.transport.resume ok (.attempt tid p after))).outgoing x) := by
  have data : ∀ q ∈ after, q.isData :=
    sound (.attempt tid p after) (by rw [hs]; exact List.mem_cons_self)
  have failing : c.stack.filterMap (Frame.fail? x) = rest.filterMap (Frame.fail? x) := by
    rw [hs]
    exact fail?_attempt _ _
  by_cases hx : x = tid
  · subst hx
    have ended : OutMove o x c (.reply ok)
        ((Config.enter rest (c.transport.attemptEnd o x p)).outgoing x) := by
      refine .ended hs ?_
      have h := outgoing_attemptEnd_self (o := o) (x := x) (t := c.transport) rest p
      simpa [Config.outgoing, Transport.outgoing, failing] using h
    simp only [resume, hr]
    cases ok with
    | false => exact ended
    | true =>
      cases after with
      | nil => exact ended
      | cons q after =>
        simp only [attemptRest, if_true]
        rw [outgoing_sent]
        have next := OutMove.next (o := o) hs (data q List.mem_cons_self)
        simpa [Config.outgoing, Transport.outgoing, failing, attempt?_self, fail?_attempt] using next
  · have same : c.transport.outgoing rest x = c.outgoing x := by
      simp only [Config.outgoing, Transport.outgoing, failing]
      rw [hs, attempt?_other hx]
    have ended : OutMove o x c (.reply ok)
        ((Config.enter rest (c.transport.attemptEnd o tid p)).outgoing x) := by
      rw [outgoing_attemptEnd_other p hx, same]
      exact .same
    simp only [resume, hr]
    cases ok with
    | false => exact ended
    | true =>
      cases after with
      | nil => exact ended
      | cons q after =>
        exact outMove_sent (data q List.mem_cons_self) (by simp [Frame.attempt?, Ne.symm hx]) rfl
          same

theorem outMove_reply {f : Frame} {rest : List Frame} (ok : Bool)
    (hr : c.transport.reliable = some o) (sound : c.Sound) (hs : c.stack = f :: rest) :
    OutMove o x c (.reply ok) ((Config.enter rest (c.transport.resume ok f)).outgoing x) := by
  have same : f.attempt? x = none → f.fail? x = none →
      c.transport.outgoing rest x = c.outgoing x := by
    intro ha hf
    simp only [Config.outgoing, Transport.outgoing, hs, List.filterMap_cons_none ha,
      List.filterMap_cons_none hf]
  have data : f.Sound := sound _ (by rw [hs]; exact List.mem_cons_self)
  cases hi : f.incoming with
  | true =>
    obtain ⟨ha, hf⟩ := attempt?_incoming hi x
    obtain ⟨b, hb, eq⟩ := outgoing_receives (x := x) rest
      (receivesTo_resume (t := c.transport) hi ok)
    rw [same ha hf] at hb eq
    rw [eq]
    exact .other hb
  | false =>
    cases f with
    | attempt tid p after => exact outMove_attempt ok hr sound hs
    | fail tid reason =>
      simp only [resume, hr]
      exact outMove_failRest ok hs
    | resend after =>
      cases ok with
      | false =>
        rw [show (Config.enter rest (c.transport.resume false (.resend after))).outgoing x =
          c.transport.outgoing rest x from rfl, same rfl rfl]
        exact .same
      | true =>
        cases after with
        | nil =>
          rw [show (Config.enter rest (c.transport.resume true (.resend []))).outgoing x =
            c.transport.outgoing rest x from rfl, same rfl rfl]
          exact .same
        | cons q after => exact outMove_sent (data q List.mem_cons_self) rfl rfl (same rfl rfl)
    | plain after =>
      cases ok with
      | false =>
        rw [show (Config.enter rest (c.transport.resume false (.plain after))).outgoing x =
          c.transport.outgoing rest x from rfl, same rfl rfl]
        exact .same
      | true =>
        cases after with
        | nil =>
          rw [show (Config.enter rest (c.transport.resume true (.plain []))).outgoing x =
            c.transport.outgoing rest x from rfl, same rfl rfl]
          exact .same
        | cons q after => exact outMove_sent (data q List.mem_cons_self) rfl rfl (same rfl rfl)
    | control => cases hi
    | emit => cases hi

/-- **What one event can do to one tid being sent.** -/
theorem step_outgoing (hr : c.transport.reliable = some o) (sound : c.Sound)
    (h : c.step e = some c') : OutMove o x c e (c'.outgoing x) := by
  cases e with
  | receive text =>
    cases h
    exact outMove_receive hr
  | send data ids =>
    cases h
    exact outMove_send data ids hr
  | resendTick timer =>
    simp only [Config.step] at h
    split at h
    · rename_i idle
      cases h
      have empty := List.isEmpty_iff.mp idle.1
      rw [← empty]
      exact outMove_tick timer hr empty
    · cases h
  | fireNack tid =>
    simp only [Config.step] at h
    split at h
    · rename_i idle
      cases h
      obtain ⟨b, hb, eq⟩ := outgoing_receives (x := x) c.stack
        (receivesTo_fireNack (t := c.transport) tid)
      rw [← List.isEmpty_iff.mp idle.1, eq]
      exact .other hb
    · cases h
  | cleanup =>
    cases h
    obtain ⟨b, hb, eq⟩ := outgoing_receives (x := x) c.stack
      (.done (receives_cleanup (t := c.transport)))
    exact eq ▸ .other hb
  | advance ms => cases h; exact .same
  | readyState isOpen => cases h; exact .same
  | configure options partialTtlMs => cases h; exact .same
  | onMessage listener =>
    cases h
    have eq : Config.outgoing { c with transport := c.transport.onMessage listener } x =
        c.outgoing x := by
      simp only [Config.outgoing, onMessage]
      split <;> rfl
    exact eq ▸ .same
  | unsubscribe listener => cases h; exact .same
  | detach =>
    cases h
    exact outMove_detach hr
  | reply ok =>
    simp only [Config.step] at h
    split at h
    · cases h
    · rename_i f rest hs
      cases h
      exact outMove_reply ok hr sound hs

end LemonModel
