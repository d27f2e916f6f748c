import LemonModel.Transport.Once
import LemonModel.Transport.Spoken
import LemonModel.Transport.Timers

/-!
# One outcome for every send

A send is pending, failing, or settled, and it is settled once. What can break
this is an ack or a `detach` that arrives from inside `network.send` while the
last attempt is still in its loop: `attemptSend` goes on to fail the send all
the same.
-/

namespace LemonModel

open Text

/-- How often `tid` was settled on the send side. -/
def settlements (tid : JSString) (log : List Effect) : Nat :=
  log.countP fun
    | .settled x _ => x = tid
    | _ => false

/-- An ack for `tid` found it pending. -/
def wasAcked (tid : JSString) (log : List Effect) : Bool :=
  log.any fun
    | .resolved x => x = tid
    | _ => false

/-- A `json:error` for `tid` was sent, its failure emitted, or it was settled as
failed. -/
def hasFailed (tid : JSString) (log : List Effect) : Bool :=
  log.any fun
    | .sent (.error x _) => x = tid
    | .error (some x) r => x = tid && r.scope = .failed
    | .settled x .fail => x = tid
    | _ => false

/-- `tid` is in the loop of its last attempt. -/
def Config.lastAttempt (tid : JSString) (c : Config) : Bool :=
  c.transport.reliable.any fun o =>
    (c.outgoing tid).attempts.any fun a => o.maxAttempts ≤ a.1.attempts

/-- The step starts no send under a used tid, and brings neither an ack for
`tid` nor a `detach` while the last attempt for `tid` is in its loop. -/
def Settleable (tid : JSString) (c : Config) : Event → Prop
  | .send _ ids => starts ids.tid c.transport.log = 0
  | .receive text => readPacket text = some (.ack tid) → c.lastAttempt tid = false
  | .detach => c.lastAttempt tid = false
  | _ => True

instance (tid : JSString) (c : Config) (e : Event) : Decidable (Settleable tid c e) := by
  rcases e with ⟨⟩ <;> dsimp only [Settleable] <;> infer_instance

/-- What the state of a tid on the send side can be. -/
structure OneEnd (o : ReliableOptions) (tid : JSString) (g : Outgoing) : Prop where
  one : settlements tid g.log + g.failing.length + (if g.pending.isSome then 1 else 0) =
    starts tid g.log
  fresh : starts tid g.log ≤ 1
  single : g.attempts.length ≤ 1
  attempted : g.attempts ≠ [] → starts tid g.log = 1
  last : ∀ a ∈ g.attempts, o.maxAttempts ≤ a.1.attempts → g.pending.isSome
  failed : hasFailed tid g.log = true → g.failing ≠ [] ∨ settlements tid g.log = 1
  acked : wasAcked tid g.log = true → settlements tid g.log = 1 ∧ hasFailed tid g.log = false ∧
    ∀ entry, g.outcome = some entry → entry.outcome = .ok

variable {o : ReliableOptions} {x : JSString} {c c' : Config} {e : Event}

/-! ## Counting effects -/

/-- What an effect says of `tid`: a start, a settlement, an ack, a failure. -/
def Effect.marks (tid : JSString) : Effect → Nat × Nat × Bool × Bool
  | .started x _ => if x = tid then (1, 0, false, false) else (0, 0, false, false)
  | .settled x .ok => if x = tid then (0, 1, false, false) else (0, 0, false, false)
  | .settled x .fail => if x = tid then (0, 1, false, true) else (0, 0, false, false)
  | .resolved x => (0, 0, x = tid, false)
  | .sent (.error x _) => (0, 0, false, x = tid)
  | .error (some x) r => (0, 0, false, x = tid && r.scope = .failed)
  | _ => (0, 0, false, false)

theorem marks_cons (e : Effect) (log : List Effect) :
    starts x (e :: log) = starts x log + (e.marks x).1 ∧
      settlements x (e :: log) = settlements x log + (e.marks x).2.1 ∧
      wasAcked x (e :: log) = ((e.marks x).2.2.1 || wasAcked x log) ∧
      hasFailed x (e :: log) = ((e.marks x).2.2.2 || hasFailed x log) := by
  simp only [starts, settlements, wasAcked, hasFailed, List.countP_cons, List.any_cons]
  cases e with
  | started y data => by_cases h : y = x <;> simp [Effect.marks, h]
  | settled y outcome => cases outcome <;> by_cases h : y = x <;> simp [Effect.marks, h]
  | sent p => cases p <;> simp [Effect.marks]
  | error tid r => cases tid <;> simp [Effect.marks]
  | _ => simp [Effect.marks]

/-- Effects that say nothing of `x` change no count. -/
theorem marks_append {es : List Effect} (hes : ∀ e ∈ es, e.marks x = (0, 0, false, false))
    (log : List Effect) :
    starts x (es ++ log) = starts x log ∧ settlements x (es ++ log) = settlements x log ∧
      wasAcked x (es ++ log) = wasAcked x log ∧ hasFailed x (es ++ log) = hasFailed x log := by
  induction es with
  | nil => exact ⟨rfl, rfl, rfl, rfl⟩
  | cons e es ih =>
    obtain ⟨h₁, h₂, h₃, h₄⟩ := marks_cons (x := x) e (es ++ log)
    rw [hes e List.mem_cons_self] at h₁ h₂ h₃ h₄
    obtain ⟨i₁, i₂, i₃, i₄⟩ := ih fun e he => hes e (List.mem_cons_of_mem _ he)
    exact ⟨h₁.trans i₁, h₂.trans i₂, h₃.trans (by simpa using i₃), h₄.trans (by simpa using i₄)⟩

theorem settlements_outgoing (log : List Effect) :
    settlements x (log.filter (Effect.outgoing x)) = settlements x log := by
  rw [settlements, settlements, List.countP_filter]
  congr 1
  funext e
  cases e with
  | settled y outcome => by_cases hy : y = x <;> simp [Effect.outgoing, hy]
  | _ => rfl

theorem wasAcked_outgoing (log : List Effect) :
    wasAcked x (log.filter (Effect.outgoing x)) = wasAcked x log := by
  rw [wasAcked, wasAcked, List.any_filter]
  congr 1
  funext e
  cases e <;> simp [Effect.outgoing]

theorem hasFailed_outgoing (log : List Effect) :
    hasFailed x (log.filter (Effect.outgoing x)) = hasFailed x log := by
  rw [hasFailed, hasFailed, List.any_filter]
  congr 1
  funext e
  cases e with
  | settled y outcome => cases outcome <;> simp [Effect.outgoing]
  | sent p =>
    cases p <;> simp +contextual [Effect.outgoing, JSONTransportPacket.tid]
  | error tid r =>
    cases tid with
    | none => rfl
    | some y => by_cases hf : r.scope = .failed <;> simp [Effect.outgoing, hf]
  | _ => simp [Effect.outgoing]

/-! ## One step -/

namespace OneEnd

variable {g : Outgoing}

/-- A pending send has not ended in any way. -/
theorem of_pending (h : OneEnd o x g) (hp : g.pending.isSome) :
    starts x g.log = 1 ∧ settlements x g.log = 0 ∧ g.failing = [] ∧ wasAcked x g.log = false ∧
      hasFailed x g.log = false := by
  have one := h.one
  have fresh := h.fresh
  rw [if_pos hp] at one
  have settled : settlements x g.log = 0 := by omega
  have failing : g.failing = [] := List.length_eq_zero_iff.mp (by omega)
  refine ⟨by omega, settled, failing, ?_, ?_⟩
  · cases ha : wasAcked x g.log with
    | false => rfl
    | true =>
      have := (h.acked ha).1
      omega
  · cases hf : hasFailed x g.log with
    | false => rfl
    | true =>
      rcases h.failed hf with h' | h'
      · exact absurd failing h'
      · omega

/-- Effects that say nothing of `x` change nothing. -/
theorem quiet (h : OneEnd o x g) {es : List Effect}
    (hes : ∀ e ∈ es, e.marks x = (0, 0, false, false)) :
    OneEnd o x { g with log := es ++ g.log } := by
  obtain ⟨h₁, h₂, h₃, h₄⟩ := marks_append hes g.log
  constructor
  · simpa only [h₁, h₂] using h.one
  · simpa only [h₁] using h.fresh
  · exact h.single
  · simpa only [h₁] using h.attempted
  · exact h.last
  · simpa only [h₂, h₄] using h.failed
  · simpa only [h₂, h₃, h₄] using h.acked

theorem data_marks {q : JSONTransportPacket} (h : q.isData) :
    (Effect.sent q).marks x = (0, 0, false, false) := by
  cases q <;> first | rfl | cases h

theorem sentFor_marks {q : JSONTransportPacket} (h : q.isData) :
    ∀ e ∈ sentFor x q, e.marks x = (0, 0, false, false) := by
  intro e he
  rw [sentFor] at he
  split at he
  · rw [List.mem_singleton.mp he]
    exact data_marks h
  · cases he

/-- `failSend` of a pending send whose loop is over. -/
theorem fail (h : OneEnd o x g) (hp : g.pending.isSome) (idle : g.attempts = [])
    (reason : JSString) : OneEnd o x (g.fail x reason) := by
  obtain ⟨started, settled, failing, acked, _⟩ := h.of_pending hp
  obtain ⟨h₁, h₂, h₃, _⟩ := marks_cons (x := x) (.sent (.error x reason)) g.log
  simp only [Effect.marks, decide_true, Bool.false_or, Nat.add_zero] at h₁ h₂ h₃
  constructor
  · simp only [Outgoing.fail, h₁, h₂, started, settled, failing]
    rfl
  · simp only [Outgoing.fail, h₁, started, le_refl]
  · simp [Outgoing.fail, idle]
  · simp [Outgoing.fail, idle]
  · simp [Outgoing.fail, idle]
  · exact fun _ => .inl (by simp [Outgoing.fail])
  · intro ha
    simp only [Outgoing.fail, h₃, acked] at ha
    cases ha

theorem attempt {now : Nat} {isOpen : Bool} {p : PendingSend} {g' : Outgoing} (h : OneEnd o x g)
    (hp : g.pending.isSome) (idle : g.attempts = []) (move : Attempted o now isOpen x p g g') :
    OneEnd o x g' := by
  cases move with
  | deadline _ => exact h.fail hp idle _
  | closed _ _ => exact h
  | sent rest _ _ _ =>
    obtain ⟨started, settled, failing, acked, hf⟩ := h.of_pending hp
    have sent : OneEnd o x { g with log := sentFor x (.manifest p.split.manifest) ++ g.log } :=
      h.quiet (sentFor_marks rfl)
    constructor
    · simpa [hp] using sent.one
    · exact sent.fresh
    · simp [idle]
    · intro _
      exact (sent.of_pending hp).1
    · simp
    · exact sent.failed
    · exact sent.acked

theorem finish {p : PendingSend} {rest : List JSONTransportPacket} {g' : Outgoing}
    (h : OneEnd o x g) (running : g.attempts = [(p, rest)])
    (move : Ended o x p { g with attempts := [] } g') : OneEnd o x g' := by
  have done : OneEnd o x { g with attempts := [] } :=
    ⟨h.one, h.fresh, by simp, by simp, by simp, h.failed, h.acked⟩
  cases move with
  | more _ => exact done
  | last last =>
    have pending : g.pending.isSome := h.last (p, rest) (by simp [running]) last
    exact done.fail pending rfl _

/-- A settlement of a pending send, its loop not being the last. -/
theorem settle (h : OneEnd o x g) (hp : g.pending.isSome)
    (open_ : ∀ a ∈ g.attempts, ¬ o.maxAttempts ≤ a.1.attempts) (outcome : Outcome)
    {entry : Option SettledEntry} {expiresAt : Nat} (fades : Fades (some ⟨outcome, expiresAt⟩) entry)
    {e : Effect} (he : e.marks x = (0, 0, decide (outcome = .ok), false)) :
    OneEnd o x { g with
      pending := none
      outcome := entry
      log := e :: .settled x outcome :: g.log } := by
  obtain ⟨started, settled, failing, acked, hf⟩ := h.of_pending hp
  obtain ⟨h₁, h₂, h₃, h₄⟩ := marks_cons (x := x) e (.settled x outcome :: g.log)
  obtain ⟨i₁, i₂, i₃, i₄⟩ := marks_cons (x := x) (.settled x outcome) g.log
  rw [he, i₁, started] at h₁
  rw [he, i₂, settled] at h₂
  rw [he, i₃, acked] at h₃
  rw [he, i₄, hf] at h₄
  have one : settlements x (e :: .settled x outcome :: g.log) = 1 := by
    rw [h₂]
    cases outcome <;> simp [Effect.marks]
  have start : starts x (e :: .settled x outcome :: g.log) = 1 := by
    rw [h₁]
    cases outcome <;> simp [Effect.marks]
  constructor
  · simp [one, start, failing]
  · exact le_of_eq start
  · exact h.single
  · exact fun _ => start
  · exact fun a ha last => absurd last (open_ a ha)
  · exact fun _ => .inr one
  · intro ha
    change wasAcked x (e :: .settled x outcome :: g.log) = true at ha
    cases outcome with
    | fail => simp [h₃, Effect.marks] at ha
    | ok =>
      refine ⟨one, by rw [h₄]; simp [Effect.marks], fun entry' heq => ?_⟩
      rcases fades with rfl | rfl
      · obtain rfl := Option.some.inj heq
        rfl
      · cases heq

/-- An entry of the settled memory fades. -/
theorem fade (h : OneEnd o x g) {b : Option SettledEntry} (fades : Fades g.outcome b) :
    OneEnd o x { g with outcome := b } := by
  refine ⟨h.one, h.fresh, h.single, h.attempted, h.last, h.failed, fun ha => ?_⟩
  obtain ⟨one, hf, ok⟩ := h.acked ha
  refine ⟨one, hf, fun entry heq => ?_⟩
  rcases fades with rfl | rfl
  · exact ok entry heq
  · cases heq

/-- A tid that was never used has no loop. -/
theorem idle_of_unused (h : OneEnd o x g) (unused : starts x g.log = 0) : g.attempts = [] := by
  by_contra running
  have := h.attempted running
  omega

/-- A send starts. -/
theorem start (h : OneEnd o x g) (unused : starts x g.log = 0) (data : JSValue)
    (p : PendingSend) :
    OneEnd o x { g with pending := some p, log := .started x data :: g.log } := by
  have one := h.one
  have settled : settlements x g.log = 0 := by omega
  have failing : g.failing = [] := List.length_eq_zero_iff.mp (by omega)
  obtain ⟨h₁, h₂, h₃, h₄⟩ := marks_cons (x := x) (.started x data) g.log
  simp only [Effect.marks, if_pos, unused, settled, Nat.zero_add, Bool.false_or] at h₁ h₂ h₃ h₄
  constructor
  · simp [h₁, h₂, failing]
  · exact le_of_eq h₁
  · exact h.single
  · exact fun _ => h₁
  · exact fun _ _ _ => rfl
  · intro hf
    rw [h₄] at hf
    rcases h.failed hf with h' | h'
    · exact .inl h'
    · omega
  · intro ha
    rw [h₃] at ha
    have := (h.acked ha).1
    omega

/-- The loop goes on with the packet after the one that was sent. -/
theorem advance {p : PendingSend} {q : JSONTransportPacket} {rest : List JSONTransportPacket}
    {others : List (PendingSend × List JSONTransportPacket)} (h : OneEnd o x g)
    (running : g.attempts = (p, q :: rest) :: others) (data : q.isData) :
    OneEnd o x { g with log := sentFor x q ++ g.log, attempts := (p, rest) :: others } := by
  have sent := h.quiet (sentFor_marks data)
  refine ⟨sent.one, sent.fresh, ?_, fun _ => sent.attempted (by simp [running]), ?_, sent.failed,
    sent.acked⟩
  · simpa [running] using h.single
  · intro a ha last
    rcases List.mem_cons.mp ha with rfl | ha
    · exact h.last (p, q :: rest) (by simp [running]) last
    · exact h.last a (by rw [running]; exact List.mem_cons_of_mem _ ha) last

/-- The end of `failSend`: it was the only one for its tid. -/
theorem failed_ends {reason text : JSString} {others : List JSString} (h : OneEnd o x g)
    (failing : g.failing = reason :: others) (entry : Option SettledEntry) :
    OneEnd o x { g with
      outcome := entry
      log := .rejected x :: .error (some x) (report .failed text) :: .settled x .fail :: g.log
      failing := others } := by
  have one := h.one
  have fresh := h.fresh
  rw [failing, List.length_cons] at one
  have settled : settlements x g.log = 0 := by omega
  have idle : g.pending.isSome = false := by
    by_contra hp
    rw [Bool.not_eq_false] at hp
    rw [if_pos hp] at one
    omega
  have alone : others.length = 0 := by omega
  have acked : wasAcked x g.log = false := by
    cases ha : wasAcked x g.log with
    | false => rfl
    | true =>
      have := (h.acked ha).1
      omega
  obtain ⟨h₁, h₂, h₃, _⟩ := marks_cons (x := x) (.settled x .fail) g.log
  simp only [Effect.marks, if_pos, settled, acked, Nat.add_zero, Nat.zero_add, Bool.or_self]
    at h₁ h₂ h₃
  have settledNow : settlements x (.rejected x :: .error (some x) (report .failed text) ::
      .settled x .fail :: g.log) = 1 := h₂
  constructor
  · rw [settledNow, alone, idle]
    change 1 + 0 + 0 = starts x (.settled x .fail :: g.log)
    rw [h₁]
    omega
  · exact (show starts x (.settled x .fail :: g.log) ≤ 1 from h₁ ▸ fresh)
  · exact h.single
  · intro running
    exact (show starts x (.settled x .fail :: g.log) = 1 from h₁ ▸ h.attempted running)
  · exact h.last
  · exact fun _ => .inr settledNow
  · intro ha
    change wasAcked x (.settled x .fail :: g.log) = true at ha
    rw [h₃] at ha
    cases ha

end OneEnd

theorem lastAttempt_false (hr : c.transport.reliable = some o) (h : c.lastAttempt x = false) :
    ∀ a ∈ (c.outgoing x).attempts, ¬ o.maxAttempts ≤ a.1.attempts := by
  intro a ha last
  rw [Config.lastAttempt, hr, Option.any_some, List.any_eq_false] at h
  exact h a ha (by simpa using last)

/-- **The step lemma.** -/
theorem move_oneEnd (hr : c.transport.reliable = some o) (settleable : Settleable x c e)
    {g : Outgoing} (move : OutMove o x c e g) (h : OneEnd o x (c.outgoing x)) : OneEnd o x g := by
  cases move with
  | other fades => exact h.fade fades
  | resent p hp _ =>
    refine OneEnd.quiet h fun e (he : e ∈ [Effect.sent p]) => ?_
    rw [List.mem_singleton.mp he]
    exact OneEnd.data_marks hp
  | @begin data ids split _ hs htid attempted =>
    have unused : starts x (c.outgoing x).log = 0 := by
      have : starts ids.tid c.transport.log = 0 := settleable
      rwa [← Transport.splitJSON_tid hs, htid, ← starts_outgoing] at this
    exact (h.start unused data _).attempt rfl (h.idle_of_unused unused) attempted
  | tick empty _ hp attempted =>
    refine h.attempt (by rw [hp]; rfl) ?_ attempted
    simp [Config.outgoing, Transport.outgoing, empty]
  | @next p q rest stack hs hq => exact h.advance (Transport.attempts_cons hs) hq
  | @ended _ p rest stack _ hs ended =>
    have running := Transport.attempts_cons hs
    have alone : stack.filterMap (Frame.attempt? x) = [] := by
      simpa [running] using h.single
    rw [alone] at running ended
    exact h.finish running ended
  | @failed _ reason stack entry hs fades =>
    have failing : (c.outgoing x).failing = reason :: stack.filterMap (Frame.fail? x) := by
      simp only [Config.outgoing, Transport.outgoing, hs]
      exact List.filterMap_cons_some (by simp [Frame.fail?])
    exact h.failed_ends failing entry
  | acked read hp fades =>
    refine h.settle (by rw [hp]; rfl) (lastAttempt_false hr (settleable read)) .ok fades ?_
    simp [Effect.marks]
  | detached hp fades =>
    refine h.settle (by rw [hp]; rfl) (lastAttempt_false hr settleable) .fail fades ?_
    simp [Effect.marks]

/-! ## Whole runs -/

theorem Settleable.fresh (h : Settleable x c e) : Fresh c e := by
  cases e with
  | send data ids => exact h
  | _ => trivial

theorem run_oneEnd {c₀ : Config} {es : List Event} (run : Run Config.step (Settleable x) c₀ es c)
    (hr : c₀.transport.reliable = some o) (sound : c₀.Sound)
    (armed : Armed c₀.transport c₀.stack) (h : OneEnd o x (c₀.outgoing x)) :
    Armed c.transport c.stack ∧ OneEnd o x (c.outgoing x) := by
  have all : c.transport.reliable = some o ∧ c.Sound ∧ Armed c.transport c.stack ∧
      OneEnd o x (c.outgoing x) := by
    refine run.invariant (fun c => c.transport.reliable = some o ∧ c.Sound ∧
      Armed c.transport c.stack ∧ OneEnd o x (c.outgoing x)) ?_ ⟨hr, sound, armed, h⟩
    rintro s e s' ⟨hr, sound, armed, h⟩ settleable hstep
    refine ⟨(step_reliable hstep).1.trans hr, step_sound sound hstep,
      step_armed settleable.fresh armed hstep, ?_⟩
    exact move_oneEnd hr settleable (step_outgoing hr sound hstep) h
  exact all.2.2

theorem start_armed (options : SplitOptions) (partialTtlMs now : Nat) :
    Armed (.create options partialTtlMs (some o) now) [] where
  armed timer tid := by simp [Transport.create]
  used timer tid h := by simp [Transport.create] at h
  started tid p h := by simp [Transport.create] at h
  owned f h := by cases h

theorem start_oneEnd (options : SplitOptions) (partialTtlMs now : Nat) :
    OneEnd o x ((Config.start (.create options partialTtlMs (some o) now)).outgoing x) where
  one := rfl
  fresh := Nat.zero_le _
  single := Nat.zero_le _
  attempted h := absurd rfl h
  last a ha := by cases ha
  failed h := by cases h
  acked h := by cases h

/-- **Every send ends once.** In a run in which no tid is used twice, and neither
an ack for `tid` nor a `detach` comes from inside the loop of its last attempt,
in every state: a resend timer is armed for `tid` exactly while it is pending;
`tid` is settled once at most, not while it is pending, and once where it was
started and is not pending with no call left open; and once an ack found it
pending it has not failed in any way, and is remembered as `ok` if at all. -/
theorem one_outcome_per_send {options : SplitOptions} {partialTtlMs now : Nat} {tid : JSString}
    {es : List Event}
    (run : Run Config.step (Settleable tid)
      (.start (.create options partialTtlMs (some o) now)) es c) :
    ((∃ timer, c.transport.resendTimers.get? timer = some tid) ↔
        c.transport.pendingSend.has tid = true) ∧
      settlements tid c.transport.log ≤ 1 ∧
      (c.transport.pendingSend.has tid = true → settlements tid c.transport.log = 0) ∧
      (0 < starts tid c.transport.log → c.stack = [] → c.transport.pendingSend.has tid = false →
        settlements tid c.transport.log = 1) ∧
      (wasAcked tid c.transport.log = true → hasFailed tid c.transport.log = false ∧
        ∀ entry, c.transport.settledSend.get? tid = some entry → entry.outcome = .ok) := by
  obtain ⟨armed, h⟩ := run_oneEnd run rfl (by rintro f ⟨⟩) (start_armed options partialTtlMs now)
    (start_oneEnd options partialTtlMs now)
  have one := h.one
  have fresh := h.fresh
  have start : starts tid (c.outgoing tid).log = starts tid c.transport.log := starts_outgoing _
  have settle : settlements tid (c.outgoing tid).log = settlements tid c.transport.log :=
    settlements_outgoing _
  refine ⟨armed.timer_iff tid, by omega, fun pending => ?_, fun started empty idle => ?_,
    fun ha => ?_⟩
  · have := (h.of_pending (g := c.outgoing tid) pending).2.1
    omega
  · have gone : ¬ (c.outgoing tid).pending.isSome = true := by
      rw [Bool.not_eq_true]
      exact idle
    have failing : (c.outgoing tid).failing = [] := by
      simp [Config.outgoing, Transport.outgoing, empty]
    rw [if_neg gone, failing, List.length_nil] at one
    omega
  · have acked := h.acked
    simp only [Config.outgoing, Transport.outgoing, wasAcked_outgoing, settlements_outgoing,
      hasFailed_outgoing] at acked
    exact (acked ha).2

/-! A message of one packet, sent with one attempt. -/

def sender : Config :=
  .start (.create .default DEFAULT_PARTIAL_TTL_MS (some ⟨1, 60000, 300000, 10000⟩) 0)

def greet : Event := .send (.obj [(lit "a", .bool true)] none) ⟨lit "t", fun _ => []⟩

/-- The ack of the message. -/
def thanks : Event := .receive (JSONTransportPacket.ack (lit "t")).wire

theorem one_outcome_per_send_greeting :
    ∃ c, exec Config.step sender [greet, .reply true, .reply true, .reply true, thanks] = some c ∧
      settlements (lit "t") c.transport.log ≤ 1 := by
  obtain ⟨c, run⟩ := Run.of_allGood Config.step (Settleable (lit "t")) sender
    [greet, .reply true, .reply true, .reply true, thanks] (by decide +kernel)
  exact ⟨c, run.exec_eq, (one_outcome_per_send run).2.1⟩

/-- An ack from inside `network.send` of the last attempt: the send is resolved,
and then its `json:error` is sent, its failure is emitted, and it is settled
again, as failed. -/
theorem acked_send_fails :
    ¬ ∀ es c, exec Config.step sender es = some c → ∀ tid, starts tid c.transport.log = 1 →
      wasAcked tid c.transport.log = true → settlements tid c.transport.log ≤ 1 ∧
        hasFailed tid c.transport.log = false ∧
        ∀ entry, c.transport.settledSend.get? tid = some entry → entry.outcome = .ok := by
  intro h
  have run : ((exec Config.step sender [greet, thanks, .reply true, .reply true, .reply true]).map
      fun c => (starts (lit "t") c.transport.log, wasAcked (lit "t") c.transport.log,
        settlements (lit "t") c.transport.log)) = some (1, true, 2) := by decide +kernel
  obtain ⟨c, hc, read⟩ := Option.map_eq_some_iff.mp run
  simp only [Prod.mk.injEq] at read
  have := (h _ c hc (lit "t") read.1 read.2.1).1
  omega

end LemonModel
