import LemonModel.Transport.Link

/-!
# An attempt whose ack arrives

Whether a send resolves when an ack for it arrives in time. `attemptSend` gives up
as soon as its last attempt is out, so the ack has to arrive before that attempt is
begun: `Underway` is kept by the attempts before it, and `Doomed` by everything
from then on.
-/

namespace LemonModel

open Text

/-- The step begins no attempt for `tid` that uses up `maxAttempts`. -/
def Spares (tid : JSString) (c : Config) : Event → Prop
  | .send _ ids => ids.tid = tid → c.transport.isOpen = true →
    ∀ o ∈ c.transport.reliable, 1 < o.maxAttempts
  | .resendTick timer => c.transport.resendTimers.get? timer = some tid →
    c.transport.isOpen = true → ∀ o ∈ c.transport.reliable,
      ∀ p ∈ c.transport.pendingSend.get? tid, p.attempts + 1 < o.maxAttempts
  | _ => True

/-- The step starts no send under a used tid, and brings no ack for `tid`. -/
def Waits (tid : JSString) (c : Config) : Event → Prop
  | .send _ ids => starts ids.tid c.transport.log = 0
  | .receive text => readPacket text ≠ some (.ack tid)
  | _ => True

instance (tid : JSString) (c : Config) (e : Event) : Decidable (Spares tid c e) := by
  rcases e with ⟨⟩ <;> dsimp only [Spares] <;> infer_instance

instance (tid : JSString) (c : Config) (e : Event) : Decidable (Waits tid c e) := by
  rcases e with ⟨⟩ <;> dsimp only [Waits] <;> infer_instance

/-- `tid` is pending since `start`, with an attempt to spare. -/
structure Underway (o : ReliableOptions) (tid : JSString) (start : Nat) (g : Outgoing) : Prop where
  pending : ∃ p, g.pending = some p ∧ p.attempts < o.maxAttempts ∧ p.startedAt = start
  attempts : ∀ a ∈ g.attempts, a.1.attempts < o.maxAttempts
  failing : g.failing = []
  unfailed : hasFailed tid g.log = false
  started : starts tid g.log ≠ 0

/-- `tid` is resolved, and nothing is left that could fail it. -/
structure Honoured (o : ReliableOptions) (tid : JSString) (g : Outgoing) : Prop where
  settled : g.pending = none
  attempts : ∀ a ∈ g.attempts, a.1.attempts < o.maxAttempts
  failing : g.failing = []
  unfailed : hasFailed tid g.log = false
  started : starts tid g.log ≠ 0
  acked : wasAcked tid g.log = true

/-- `tid` has failed, or the last attempt for it is in its loop. -/
def Doomed (o : ReliableOptions) (tid : JSString) (g : Outgoing) : Prop :=
  hasFailed tid g.log = true ∨ ∃ a ∈ g.attempts, o.maxAttempts ≤ a.1.attempts

variable {o : ReliableOptions} {x : JSString} {start : Nat} {g g' : Outgoing}
variable {c c' : Config} {e : Event}

theorem marks_sent {q : JSONTransportPacket} (hq : q.isData) (log : List Effect) :
    starts x (.sent q :: log) = starts x log ∧ settlements x (.sent q :: log) = settlements x log ∧
      wasAcked x (.sent q :: log) = wasAcked x log ∧ hasFailed x (.sent q :: log) = hasFailed x log :=
  @marks_append x [.sent q] (by simpa using OneEnd.data_marks hq) log

theorem failed_fail (reason : JSString) : hasFailed x (g.fail x reason).log = true := by
  have failed := (marks_cons (x := x) (.sent (.error x reason)) g.log).2.2.2
  simpa [Effect.marks, Outgoing.fail] using failed

theorem Doomed.step (h : Doomed o x (c.outgoing x)) (move : OutMove o x c e g) : Doomed o x g := by
  -- a failure stays in the log, and a loop ends with `attemptEnd`
  have grow : ∀ (f : Effect) (log : List Effect), hasFailed x log = true →
      hasFailed x (f :: log) = true := by
    intro f log failed
    rw [(marks_cons (x := x) f log).2.2.2, failed, Bool.or_true]
  cases move with
  | other fades => exact h
  | resent p hp _ => exact h.imp_left (grow _ _)
  | begin hs htid attempted =>
    cases attempted with
    | deadline _ => exact .inl (failed_fail _)
    | closed _ _ => exact h.imp_left (grow _ _)
    | sent rest _ _ _ =>
      refine h.imp (fun failed => ?_) fun ⟨a, ha, last⟩ => ⟨a, List.mem_cons_of_mem _ ha, last⟩
      rw [(marks_append (OneEnd.sentFor_marks rfl) _).2.2.2]
      exact grow _ _ failed
  | tick empty _ hp attempted =>
    cases attempted with
    | deadline _ => exact .inl (failed_fail _)
    | closed _ _ => exact h
    | sent rest _ _ _ =>
      refine h.imp (fun failed => ?_) fun ⟨a, ha, last⟩ => ⟨a, List.mem_cons_of_mem _ ha, last⟩
      rw [(marks_append (OneEnd.sentFor_marks rfl) _).2.2.2]
      exact failed
  | @next p q rest stack hs hq =>
    have running := Transport.attempts_cons hs
    rcases h with failed | ⟨a, ha, last⟩
    · left
      rw [(marks_append (OneEnd.sentFor_marks hq) _).2.2.2]
      exact failed
    · right
      rw [running] at ha
      rcases List.mem_cons.mp ha with rfl | ha
      · exact ⟨_, List.mem_cons_self, last⟩
      · exact ⟨a, List.mem_cons_of_mem _ ha, last⟩
  | @ended _ p rest stack _ hs ended =>
    have running := Transport.attempts_cons hs
    cases ended with
    | last _ => exact .inl (failed_fail _)
    | more more =>
      rcases h with failed | ⟨a, ha, last⟩
      · exact .inl failed
      · rw [running] at ha
        rcases List.mem_cons.mp ha with rfl | ha
        · exact absurd last more
        · exact .inr ⟨a, ha, last⟩
  | failed hs fades =>
    left
    rw [(marks_cons _ _).2.2.2, (marks_cons _ _).2.2.2, (marks_cons _ _).2.2.2]
    simp [Effect.marks]
  | acked read hp fades =>
    exact h.imp_left fun failed => grow _ _ (grow _ _ failed)
  | detached hp fades =>
    left
    rw [(marks_cons _ _).2.2.2, (marks_cons _ _).2.2.2]
    simp [Effect.marks]

theorem Attempted.underway {now : Nat} {isOpen : Bool} {p : PendingSend}
    (move : Attempted o now isOpen x p g g') (h : Underway o x start g) (hp : g.pending = some p)
    (early : ¬ o.deadlineMs ≤ now - p.startedAt)
    (spare : isOpen = true → p.attempts + 1 < o.maxAttempts) : Underway o x start g' := by
  obtain ⟨q, hq, -, since⟩ := h.pending
  obtain rfl := Option.some.inj (hp.symm.trans hq)
  cases move with
  | deadline late => exact absurd late early
  | closed _ _ => exact h
  | sent rest _ opened _ =>
    have same := marks_append
      (OneEnd.sentFor_marks (x := x) (q := .manifest p.split.manifest) rfl) g.log
    constructor
    · exact ⟨_, rfl, spare opened, since⟩
    · intro a ha
      rcases List.mem_cons.mp ha with rfl | ha
      · exact spare opened
      · exact h.attempts a ha
    · exact h.failing
    · exact same.2.2.2.trans h.unfailed
    · exact same.1 ▸ h.started

theorem Underway.step (h : Underway o x start (c.outgoing x)) (hr : c.transport.reliable = some o)
    (waits : Waits x c e) (spares : Spares x c e) (early : c.transport.now - start < o.deadlineMs)
    (attached : e ≠ .detach)
    (move : OutMove o x c e g) : Underway o x start g := by
  obtain ⟨p, hp, spare, since⟩ := h.pending
  cases move with
  | other fades => exact ⟨h.pending, h.attempts, h.failing, h.unfailed, h.started⟩
  | resent q hq _ =>
    have same := marks_sent (x := x) hq (c.outgoing x).log
    exact ⟨h.pending, h.attempts, h.failing, same.2.2.2.trans h.unfailed, same.1 ▸ h.started⟩
  | @begin data ids split _ hs htid _ =>
    have unused : starts ids.tid c.transport.log = 0 := waits
    rw [← Transport.splitJSON_tid hs, htid, ← starts_outgoing] at unused
    exact absurd unused h.started
  | tick empty timer hp' attempted =>
    obtain rfl := Option.some.inj (hp.symm.trans hp')
    exact attempted.underway h hp (by omega) fun opened => spares timer opened o hr p hp
  | @next q p' rest stack hs hq =>
    have running := Transport.attempts_cons hs
    have same := marks_append (OneEnd.sentFor_marks (x := x) hq) (c.outgoing x).log
    constructor
    · exact h.pending
    · intro a ha
      rcases List.mem_cons.mp ha with rfl | ha
      · exact h.attempts (q, p' :: rest) (by simp [running])
      · exact h.attempts a (by simp [running, ha])
    · exact h.failing
    · exact same.2.2.2.trans h.unfailed
    · exact same.1 ▸ h.started
  | @ended _ q rest stack _ hs ended =>
    have running := Transport.attempts_cons hs
    have spare := h.attempts (q, rest) (by simp [running])
    cases ended with
    | last last => simp only at spare; omega
    | more _ =>
      constructor
      · exact h.pending
      · intro a ha
        exact h.attempts a (by simp [running, ha])
      · exact h.failing
      · exact h.unfailed
      · exact h.started
  | @failed _ reason stack _ hs fades =>
    have failing := h.failing
    simp [Config.outgoing, Transport.outgoing, hs, Frame.fail?] at failing
  | acked read hp' fades => exact absurd read waits
  | detached hp' fades => exact absurd rfl attached

theorem Honoured.step (h : Honoured o x (c.outgoing x)) (fresh : Fresh c e)
    (move : OutMove o x c e g) : Honoured o x g := by
  cases move with
  | other fades => exact ⟨h.settled, h.attempts, h.failing, h.unfailed, h.started, h.acked⟩
  | resent q hq _ =>
    have same := marks_sent (x := x) hq (c.outgoing x).log
    exact ⟨h.settled, h.attempts, h.failing, same.2.2.2.trans h.unfailed, same.1 ▸ h.started,
      same.2.2.1.trans h.acked⟩
  | @begin data ids split _ hs htid _ =>
    have unused : starts ids.tid c.transport.log = 0 := fresh
    rw [← Transport.splitJSON_tid hs, htid, ← starts_outgoing] at unused
    exact absurd unused h.started
  | tick _ _ hp _ | acked _ hp _ | detached hp _ =>
    rw [h.settled] at hp
    cases hp
  | @next q p' rest stack hs hq =>
    have running := Transport.attempts_cons hs
    have same := marks_append (OneEnd.sentFor_marks (x := x) hq) (c.outgoing x).log
    constructor
    · exact h.settled
    · intro a ha
      rcases List.mem_cons.mp ha with rfl | ha
      · exact h.attempts (q, p' :: rest) (by simp [running])
      · exact h.attempts a (by simp [running, ha])
    · exact h.failing
    · exact same.2.2.2.trans h.unfailed
    · exact same.1 ▸ h.started
    · exact same.2.2.1.trans h.acked
  | @ended _ q rest stack _ hs ended =>
    have running := Transport.attempts_cons hs
    have spare := h.attempts (q, rest) (by simp [running])
    cases ended with
    | last last => simp only at spare; omega
    | more _ =>
      constructor
      · exact h.settled
      · intro a ha
        exact h.attempts a (by simp [running, ha])
      · exact h.failing
      · exact h.unfailed
      · exact h.started
      · exact h.acked
  | @failed _ reason stack _ hs fades =>
    have failing := h.failing
    simp [Config.outgoing, Transport.outgoing, hs, Frame.fail?] at failing

/-! ## A tid that was not sent -/

/-- There is nothing of `tid` on the send side. -/
structure Unsent (tid : JSString) (g : Outgoing) : Prop where
  pending : g.pending = none
  attempts : g.attempts = []
  failing : g.failing = []
  unfailed : hasFailed tid g.log = false

theorem unsent_step (h : starts x (c.outgoing x).log = 0 → Unsent x (c.outgoing x))
    (move : OutMove o x c e g) (unused : starts x g.log = 0) : Unsent x g := by
  cases move with
  | other fades =>
    have kept := h unused
    exact ⟨kept.pending, kept.attempts, kept.failing, kept.unfailed⟩
  | resent q hq _ =>
    have same := marks_sent (x := x) hq (c.outgoing x).log
    have kept := h (same.1 ▸ unused)
    exact ⟨kept.pending, kept.attempts, kept.failing, same.2.2.2.trans kept.unfailed⟩
  | @begin data ids split _ hs htid attempted =>
    have begun : starts x (.started x data :: (c.outgoing x).log) ≠ 0 := by
      rw [(marks_cons _ _).1]
      simp [Effect.marks]
    cases attempted with
    | deadline _ =>
      have same := marks_cons (x := x) (.sent (.error x (lit "deadline exceeded")))
        (.started x data :: (c.outgoing x).log)
      exact absurd (same.1 ▸ unused) begun
    | closed _ _ => exact absurd unused begun
    | sent rest _ _ _ =>
      have same := marks_append
        (OneEnd.sentFor_marks (x := x)
          (q := .manifest (c.transport.newPending split).split.manifest) rfl)
        (.started x data :: (c.outgoing x).log)
      exact absurd (same.1 ▸ unused) begun
  | @tick _ p _ _ _ hp attempted =>
    have unsent : starts x (c.outgoing x).log = 0 := by
      cases attempted with
      | deadline _ =>
        have same := marks_cons (x := x) (.sent (.error x (lit "deadline exceeded"))) (c.outgoing x).log
        exact same.1 ▸ unused
      | closed _ _ => exact unused
      | sent rest _ _ _ =>
        have same := marks_append
          (OneEnd.sentFor_marks (x := x) (q := .manifest p.split.manifest) rfl) (c.outgoing x).log
        exact same.1 ▸ unused
    rw [(h unsent).pending] at hp
    cases hp
  | next hs hq =>
    have same := marks_append (OneEnd.sentFor_marks (x := x) hq) (c.outgoing x).log
    have idle := (h (same.1 ▸ unused)).attempts
    rw [Transport.attempts_cons hs] at idle
    cases idle
  | ended hs ended =>
    have unsent : starts x (c.outgoing x).log = 0 := by
      cases ended with
      | last _ =>
        have same := marks_cons (x := x) (.sent (.error x (lit "max attempts exceeded")))
          (c.outgoing x).log
        exact same.1 ▸ unused
      | more _ => exact unused
    have idle := (h unsent).attempts
    rw [Transport.attempts_cons hs] at idle
    cases idle
  | failed hs fades =>
    rw [(marks_cons _ _).1, (marks_cons _ _).1, (marks_cons _ _).1] at unused
    have failing := (h (by simpa [Effect.marks] using unused)).failing
    simp [Config.outgoing, Transport.outgoing, hs, Frame.fail?] at failing
  | acked _ hp fades =>
    rw [(marks_cons _ _).1, (marks_cons _ _).1] at unused
    rw [(h (by simpa [Effect.marks] using unused)).pending] at hp
    cases hp
  | detached hp fades =>
    rw [(marks_cons _ _).1, (marks_cons _ _).1] at unused
    rw [(h (by simpa [Effect.marks] using unused)).pending] at hp
    cases hp

/-! ## The send and its ack -/

theorem Attempted.doomed {now : Nat} {isOpen : Bool} {p : PendingSend}
    (h : Attempted o now isOpen x p g g') (opened : isOpen = true)
    (last : o.maxAttempts ≤ p.attempts + 1) : Doomed o x g' := by
  cases h with
  | deadline late => exact .inl (failed_fail _)
  | closed _ closed =>
    rw [opened] at closed
    cases closed
  | sent rest _ _ _ => exact .inr ⟨_, List.mem_cons_self, last⟩

/-- The first attempt of a send leaves it underway, or is its last. -/
theorem begun {data : JSValue} {ids : Ids} {split : JSONSplitResult}
    (hr : c.transport.reliable = some o) (hs : splitJSON data c.transport.options ids = some split)
    (unsent : Unsent x (c.outgoing x)) (htid : split.tid = x) (budget : 1 ≤ o.maxAttempts)
    (deadline : 0 < o.deadlineMs) (h : c.step (.send data ids) = some c') :
    (Spares x c (.send data ids) → Underway o x c.transport.now (c'.outgoing x)) ∧
      (¬ Spares x c (.send data ids) → Doomed o x (c'.outgoing x)) := by
  subst htid
  have attempted := outgoing_sendReliable (o := o) (c := c) data split
  have entered : c' = Config.enter c.stack (c.transport.sendReliable o data split) := by
    simpa [Config.step, Transport.send, hs, hr, eq_comm] using h
  rw [← entered] at attempted
  have start : starts split.tid (.started split.tid data :: (c.outgoing split.tid).log) ≠ 0 := by
    rw [(marks_cons _ _).1]
    simp [Effect.marks]
  have unfailed : hasFailed split.tid (.started split.tid data :: (c.outgoing split.tid).log) =
    false := by
    rw [(marks_cons _ _).2.2.2, unsent.unfailed]
    simp [Effect.marks]
  have early : ¬ o.deadlineMs ≤ c.transport.now - (c.transport.newPending split).startedAt := by
    simp only [Transport.newPending]
    omega
  constructor
  · intro spares
    refine attempted.underway ⟨⟨_, rfl, budget, rfl⟩, ?_, unsent.failing, unfailed, start⟩ rfl early
      fun opened => spares (Transport.splitJSON_tid hs).symm opened o hr
    simp [unsent.attempts]
  · intro spends
    simp only [Spares, Classical.not_imp, not_forall, Nat.not_lt] at spends
    obtain ⟨_, opened, o', ho, last⟩ := spends
    obtain rfl : o = o' := Option.some.inj (hr.symm.trans ho)
    exact attempted.doomed opened last

/-- A step that is not spared is the last attempt, or finds the deadline over. -/
theorem Underway.spend (h : Underway o x start (c.outgoing x)) (hr : c.transport.reliable = some o)
    (waits : Waits x c e) (spends : ¬ Spares x c e) (hstep : c.step e = some c') :
    Doomed o x (c'.outgoing x) := by
  cases e with
  | send data ids =>
    simp only [Spares, Classical.not_imp] at spends
    have unused : starts x c.transport.log = 0 := spends.1 ▸ waits
    rw [← starts_outgoing] at unused
    exact absurd unused h.started
  | resendTick timer =>
    simp only [Spares, Classical.not_imp, not_forall, Nat.not_lt] at spends
    obtain ⟨armed, opened, o', ho, p, hp, last⟩ := spends
    obtain rfl : o = o' := Option.some.inj (hr.symm.trans ho)
    simp only [Config.step] at hstep
    split at hstep
    · cases hstep
      simp only [Transport.resendTick, hr, armed, Option.mem_def.mp hp]
      exact (Transport.outgoing_attemptSend_self p).doomed opened last
    · cases hstep
  | _ => exact absurd trivial spends

/-- The ack arrives. -/
theorem Underway.acked (h : Underway o x start (c.outgoing x)) (hr : c.transport.reliable = some o)
    {text : JSString} (read : readPacket text = some (.ack x))
    (hstep : c.step (.receive text) = some c') :
    Honoured o x (c'.outgoing x) := by
  obtain ⟨p, hp, -, -⟩ := h.pending
  have handled : c.transport.receive text = (c.transport.handleAck o x, none) := by
    simp [Transport.receive_read read, hr, Transport.acceptPacket]
  have entered : c' = Config.enter c.stack (c.transport.handleAck o x, none) := by
    cases hstep
    rw [handled]
  obtain ⟨a, _, eq⟩ := outgoing_acked (o := o) (c := c) hp
  rw [entered, eq]
  constructor
  · rfl
  · exact h.attempts
  · exact h.failing
  · rw [(marks_cons _ _).2.2.2, (marks_cons _ _).2.2.2, h.unfailed]
    simp [Effect.marks]
  · rw [(marks_cons _ _).1, (marks_cons _ _).1]
    simpa [Effect.marks] using h.started
  · rw [(marks_cons _ _).2.2.1]
    simp [Effect.marks]

/-! ## Runs of a link -/

section

variable {l l' : Link} {es : List LinkEvent} {good : Link → LinkEvent → Prop}

/-- What every step of the sender keeps, every run of the link keeps. -/
theorem sender_run (inv : Config → Prop) (run : Run Link.step good l es l')
    (hr : l.sender.transport.reliable = some o) (sound : l.sender.Sound) (h : inv l.sender)
    (step : ∀ (l : Link) e d c', good l e → e.forSender = some d → inv l.sender →
      OutMove o x l.sender d (c'.outgoing x) → l.sender.step d = some c' → inv c') :
    inv l'.sender ∧ l'.sender.transport.reliable = some o ∧ l'.sender.Sound := by
  refine run.invariant (fun l => inv l.sender ∧ l.sender.transport.reliable = some o ∧ l.sender.Sound)
    ?_ ⟨h, hr, sound⟩
  rintro l e l' ⟨h, hr, sound⟩ hgood hstep
  have seen := Link.step_sender hstep
  cases hd : e.forSender with
  | none =>
    rw [hd] at seen
    rw [seen]
    exact ⟨h, hr, sound⟩
  | some d =>
    rw [hd] at seen
    constructor
    · exact step l e d _ hgood hd h (step_outgoing hr sound seen) seen
    · exact ⟨(step_reliable seen).1.trans hr, step_sound sound seen⟩

theorem sender_ready (run : Run Link.step good l es l')
    (hr : l.sender.transport.reliable = some o) (sound : l.sender.Sound) :
    l'.sender.transport.reliable = some o ∧ l'.sender.Sound :=
  (sender_run (x := []) (fun _ => True) run hr sound trivial fun _ _ _ _ _ _ _ _ _ => trivial).2

theorem run_onward (run : Run Link.step good l es l') :
    l.sender.transport.now ≤ l'.sender.transport.now ∧
      (l'.sender.transport.attached = true → l.sender.transport.attached = true) := by
  induction run with
  | nil => exact ⟨le_rfl, id⟩
  | @cons l l₁ l' e es _ hstep _ ih =>
    have seen := Link.step_sender hstep
    cases hd : e.forSender with
    | none =>
      rw [hd] at seen
      rwa [seen] at ih
    | some d =>
      rw [hd] at seen
      obtain ⟨onward, kept⟩ := Config.step_onward seen
      exact ⟨onward.trans ih.1, fun attached => (kept (ih.2 attached)).1⟩

/-- A run that waits for the ack either spares the last attempt all the way, and
the send is underway at its end, or the send is doomed. -/
theorem waiting_run (run : Run Link.step (Link.Sender (Waits x)) l es l')
    (hr : l.sender.transport.reliable = some o) (sound : l.sender.Sound)
    (h : Underway o x start (l.sender.outgoing x))
    (early : l'.sender.transport.now - start < o.deadlineMs)
    (attached : l'.sender.transport.attached = true) :
    (Run Link.step (Link.Sender (Spares x)) l es l' ∧ Underway o x start (l'.sender.outgoing x)) ∨
      (¬ Run Link.step (Link.Sender (Spares x)) l es l' ∧ Doomed o x (l'.sender.outgoing x)) := by
  induction run with
  | nil => exact .inl ⟨.nil _, h⟩
  | @cons l l₁ l' e es waits hstep rest ih =>
    have seen := Link.step_sender hstep
    have onward := run_onward rest
    -- a step that is spared only puts the question off
    have go : Link.Sender (Spares x) l e →
        Run Link.step (Link.Sender (Spares x)) l₁ es l' ∧ Underway o x start (l'.sender.outgoing x) ∨
          ¬ Run Link.step (Link.Sender (Spares x)) l₁ es l' ∧ Doomed o x (l'.sender.outgoing x) →
        Run Link.step (Link.Sender (Spares x)) l (e :: es) l' ∧
          Underway o x start (l'.sender.outgoing x) ∨
          ¬ Run Link.step (Link.Sender (Spares x)) l (e :: es) l' ∧
            Doomed o x (l'.sender.outgoing x) := by
      rintro spares (⟨run, underway⟩ | ⟨spent, doomed⟩)
      · exact .inl ⟨.cons spares hstep run, underway⟩
      · refine .inr ⟨fun run => ?_, doomed⟩
        cases run with
        | cons _ hstep' run =>
          obtain rfl := Option.some.inj (hstep.symm.trans hstep')
          exact spent run
    cases hd : e.forSender with
    | none =>
      rw [hd] at seen
      apply go
      · intro d hd'
        rw [hd] at hd'
        cases hd'
      · apply ih
        · rw [seen]
          exact hr
        · rw [seen]
          exact sound
        · rw [seen]
          exact h
        · exact early
        · exact attached
    | some d =>
      rw [hd] at seen
      have move := step_outgoing (x := x) hr sound seen
      have hr' := (step_reliable seen).1.trans hr
      have sound' := step_sound sound seen
      obtain ⟨forth, kept⟩ := Config.step_onward seen
      by_cases spares : Spares x l.sender d
      · apply go
        · intro d' hd'
          obtain rfl := Option.some.inj (hd.symm.trans hd')
          exact spares
        · apply ih hr' sound' _ early attached
          have := onward.1
          exact h.step hr (waits d hd) spares (by omega) (kept (onward.2 attached)).2 move
      · right
        constructor
        · intro run
          cases run with
          | cons spared _ _ => exact spares (spared d hd)
        · exact (sender_run (fun c => Doomed o x (c.outgoing x)) rest hr' sound'
            (h.spend hr (waits d hd) spares seen)
            fun _ _ _ _ _ _ doomed move _ => doomed.step move).1

end

theorem run_unsent {options : SplitOptions} {partialTtlMs now : Nat} {far : Config} {l : Link}
    {es : List LinkEvent}
    (run : exec Link.step ⟨.start (.create options partialTtlMs (some o) now), far⟩ es = some l) :
    (starts x l.sender.transport.log = 0 → Unsent x (l.sender.outgoing x)) ∧
      l.sender.transport.reliable = some o ∧ l.sender.Sound := by
  have run : Run Link.step (fun _ _ => True) _ es l := Run.of_exec (fun _ _ => trivial) run
  have kept := sender_run
    (fun c => starts x (c.outgoing x).log = 0 → Unsent x (c.outgoing x)) run rfl
    (by intro f hf; cases hf) (fun _ => ⟨rfl, rfl, rfl, rfl⟩) fun _ _ _ _ _ _ h move _ =>
      unsent_step h move
  rwa [Config.outgoing, Transport.outgoing, starts_outgoing] at kept

/-- **An attempt that arrives.** A send is accepted, and an ack for it arrives from
the receiver, the first one, at an attached transport and before `deadlineMs` has
elapsed. When every call has returned, the send is resolved and nothing failed,
exactly if the attempt that uses up `maxAttempts` had not begun before the ack. -/
theorem arrived_attempt_is_honoured {options : SplitOptions} {partialTtlMs now : Nat} {far : Config}
    {data : JSValue} {ids : Ids} {split : JSONSplitResult} {before between after : List LinkEvent}
    {l₁ l₂ l₃ l₄ l₅ : Link} (budget : 1 ≤ o.maxAttempts)
    (reached : exec Link.step ⟨.start (.create options partialTtlMs (some o) now), far⟩ before =
      some l₁)
    (unused : starts ids.tid l₁.sender.transport.log = 0)
    (accepted : splitJSON data l₁.sender.transport.options ids = some split)
    (sends : l₁.step (.sender (.send data ids)) = some l₂)
    (waits : Run Link.step (Link.Sender (Waits ids.tid)) l₂ between l₃)
    (attached : l₃.sender.transport.attached = true)
    (early : l₃.sender.transport.now - l₁.sender.transport.now < o.deadlineMs)
    (arrives : l₃.step (.toSender (.ack ids.tid)) = some l₄)
    (rest : Run Link.step (Link.Sender Fresh) l₄ after l₅) (returned : l₅.sender.stack = []) :
    (wasAcked ids.tid l₅.sender.transport.log = true ∧
        hasFailed ids.tid l₅.sender.transport.log = false) ↔
      Run Link.step (Link.Sender (Spares ids.tid)) l₁ (.sender (.send data ids) :: between) l₃ := by
  obtain ⟨unsent, hr, sound⟩ := run_unsent (x := ids.tid) reached
  have sent := Link.step_sender sends
  have hr₂ := (step_reliable sent).1.trans hr
  have sound₂ := step_sound sound sent
  obtain ⟨underway, doomed⟩ := begun hr accepted (unsent unused) (Transport.splitJSON_tid accepted)
    budget (by omega) sent
  have sees : LinkEvent.forSender (.toSender (.ack ids.tid)) = 
      some (.receive (JSONTransportPacket.ack ids.tid).wire) := rfl
  have seen := Link.step_sender arrives
  rw [sees] at seen
  obtain ⟨hr₃, sound₃⟩ := sender_ready waits hr₂ sound₂
  have read : readPacket (JSONTransportPacket.ack ids.tid).wire = some (.ack ids.tid) :=
    readPacket_wire trivial
  have doom : ∀ {l l' : Link} {es : List LinkEvent} {good : Link → LinkEvent → Prop},
      Run Link.step good l es l' → l.sender.transport.reliable = some o → l.sender.Sound →
      Doomed o ids.tid (l.sender.outgoing ids.tid) → Doomed o ids.tid (l'.sender.outgoing ids.tid) := by
    intro l l' es good run hr sound h
    exact (sender_run (fun c => Doomed o ids.tid (c.outgoing ids.tid)) run hr sound h
      fun _ _ _ _ _ _ doomed move _ => doomed.step move).1
  -- a doomed send has failed by the time its loop has returned
  have lost : Doomed o ids.tid (l₃.sender.outgoing ids.tid) →
      hasFailed ids.tid l₅.sender.transport.log = true := by
    intro h
    have h₄ := h.step (step_outgoing hr₃ sound₃ seen)
    rcases doom rest ((step_reliable seen).1.trans hr₃) (step_sound sound₃ seen) h₄ with failed |
      ⟨a, ha, _⟩
    · rwa [Config.outgoing, Transport.outgoing, hasFailed_outgoing] at failed
    · simp [Config.outgoing, Transport.outgoing, returned] at ha
  constructor
  · rintro ⟨acked, unfailed⟩
    by_cases spares : Spares ids.tid l₁.sender (.send data ids)
    · rcases waiting_run waits hr₂ sound₂ (underway spares) early attached with ⟨run, _⟩ | ⟨_, h⟩
      · refine .cons ?_ sends run
        rintro d ⟨⟩
        exact spares
      · rw [lost h] at unfailed
        cases unfailed
    · rw [lost (doom waits hr₂ sound₂ (doomed spares))] at unfailed
      cases unfailed
  · intro run
    cases run with
    | @cons _ l₂' _ _ _ spares sends' run =>
      obtain rfl := Option.some.inj (sends.symm.trans sends')
      rcases waiting_run waits hr₂ sound₂ (underway (spares _ rfl)) early attached with
        ⟨_, h₃⟩ | ⟨spent, _⟩
      · have h₄ := h₃.acked hr₃ read seen
        have h₅ := (sender_run (fun c => Honoured o ids.tid (c.outgoing ids.tid)) rest
          ((step_reliable seen).1.trans hr₃) (step_sound sound₃ seen) h₄
          fun _ _ _ _ fresh hd h move _ => h.step (fresh _ hd) move).1
        have acked := h₅.acked
        have unfailed := h₅.unfailed
        simp only [Config.outgoing, Transport.outgoing, wasAcked_outgoing,
          hasFailed_outgoing] at acked unfailed
        exact ⟨acked, unfailed⟩
      · exact absurd run spent

/-! A message of one packet, and a receiver with one listener. -/

def pair (o : ReliableOptions) : Link :=
  ⟨.start (.create .default DEFAULT_PARTIAL_TTL_MS (some o) 0), receiver⟩

/-- The attempt is made, its packets arrive, and the listener returns. -/
def attempted : List LinkEvent :=
  [.sender (.reply true), .sender (.reply true), .toReceiver greeting,
    .toReceiver (.complete (lit "t")), .receiver (.reply true), .receiver (.reply true)]

theorem arrived_attempt_is_honoured_greeting :
    ∃ l, exec Link.step (pair .default) ([.receiver (.onMessage 0)] ++ (.sender greet :: attempted) ++
        [.toSender (.ack (lit "t"))]) = some l ∧
      wasAcked (lit "t") l.sender.transport.log = true ∧
      hasFailed (lit "t") l.sender.transport.log = false := by
  obtain ⟨l₄, whole⟩ := Option.isSome_iff_exists.mp (show (exec Link.step (pair .default)
    ([.receiver (.onMessage 0)] ++ (.sender greet :: attempted) ++
      [.toSender (.ack (lit "t"))])).isSome by decide +kernel)
  have run : Run Link.step (fun _ _ => True) _ _ l₄ := Run.of_exec (fun _ _ => trivial) whole
  obtain ⟨l₃, first, last⟩ := run.split
  obtain ⟨l₃', good⟩ := Run.of_allGood Link.step
    (fun l e => l.Sender (Waits (lit "t")) e ∧ l.Sender (Spares (lit "t")) e) (pair .default)
    ([.receiver (.onMessage 0)] ++ (.sender greet :: attempted)) (by decide +kernel)
  obtain rfl := Option.some.inj (first.exec_eq.symm.trans good.exec_eq)
  have timely : (l₃.sender.transport.attached, l₃.sender.transport.now) = (true, 0) :=
    good.read (f := fun l => (l.sender.transport.attached, l.sender.transport.now)) (by decide +kernel)
  obtain ⟨l₁, reached, good⟩ := good.split
  have ready : (starts (lit "t") l₁.sender.transport.log,
      (splitJSON (.obj [(lit "a", .bool true)] none) l₁.sender.transport.options
        ⟨lit "t", fun _ => []⟩).isSome) = (0, true) :=
    reached.read (f := fun l => (starts (lit "t") l.sender.transport.log,
      (splitJSON (.obj [(lit "a", .bool true)] none) l.sender.transport.options
        ⟨lit "t", fun _ => []⟩).isSome)) (by decide +kernel)
  rw [Prod.mk.injEq] at timely ready
  obtain ⟨split, accepted⟩ := Option.isSome_iff_exists.mp ready.2
  have arrives : l₃.step (.toSender (.ack (lit "t"))) = some l₄ := by
    simpa [exec] using last.exec_eq
  have spares := good.weaken fun _ _ h => h.2
  have returned : l₄.sender.stack.isEmpty = true :=
    run.read (f := fun l => l.sender.stack.isEmpty) (by decide +kernel)
  cases good with
  | cons _ sends waits =>
    exact ⟨l₄, whole, (arrived_attempt_is_honoured (by decide) reached.exec_eq ready.1 accepted sends
      (waits.weaken fun _ _ h => h.1) timely.1 
      (by rw [timely.2, Nat.zero_sub]; decide) arrives (.nil l₄) (List.isEmpty_iff.mp returned)).mpr
        spares⟩

/-- With one attempt the message is delivered and acked in time, and its sender
has already given it up. -/
theorem last_attempt_is_given_up :
    ¬ ∀ (between : List LinkEvent) (l₃ l₄ : Link),
      exec Link.step (pair ⟨1, 60000, 300000, 10000⟩)
        (.receiver (.onMessage 0) :: .sender greet :: between) = some l₃ →
      l₃.step (.toSender (.ack (lit "t"))) = some l₄ → l₃.sender.transport.attached = true →
      l₃.sender.transport.now < 60000 → l₄.sender.stack.isEmpty = true →
      wasAcked (lit "t") l₄.sender.transport.log = true ∧
        hasFailed (lit "t") l₄.sender.transport.log = false := by
  intro h
  have run : ((exec Link.step (pair ⟨1, 60000, 300000, 10000⟩)
      (.receiver (.onMessage 0) :: .sender greet :: attempted ++ [.sender (.reply true)])).bind
        fun l₃ => (l₃.step (.toSender (.ack (lit "t")))).map fun l₄ =>
          (l₃.sender.transport.attached, l₃.sender.transport.now, l₄.sender.stack.isEmpty,
            calls (lit "t") 0 l₄.receiver.transport.log, wasAcked (lit "t") l₄.sender.transport.log)) =
      some (true, 0, true, 1, false) := by decide +kernel
  obtain ⟨l₃, before, run⟩ := Option.bind_eq_some_iff.mp run
  obtain ⟨l₄, arrives, read⟩ := Option.map_eq_some_iff.mp run
  simp only [Prod.mk.injEq] at read
  have acked := (h _ l₃ l₄ before arrives read.1 (by omega) read.2.2.1).1
  rw [read.2.2.2.2] at acked
  cases acked

end LemonModel
