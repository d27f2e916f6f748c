import LemonModel.Socket.Replaced

/-!
# The close is final

After `close()` no timer, subscription or call is left that goes on, if `close()`
was not called from inside one that does.
-/

namespace LemonModel.Reconnecting

open Text

/-- The factory or a handler is called, or the factory returned. -/
def Effect.isCall : Effect → Bool
  | .factory => true
  | .created _ => true
  | .message .. => true
  | .error .. => true
  | .reconnect _ => true
  | _ => false

def Effect.isShut : Effect → Bool
  | .shut => true
  | _ => false

/-- `close()` has returned. -/
def wasShut (log : List Effect) : Bool := log.any Effect.isShut

/-- Nothing was called after `close()` returned. -/
def Hushed : List Effect → Prop
  | [] => True
  | e :: older => (e.isCall → wasShut older = false) ∧ Hushed older

/-- The call goes on with nothing, once the decorator is closed. -/
def Frame.isSpent : Frame → Bool
  | .watchOpen _ => true
  | .givingUp rest => rest.isEmpty
  | .reconnected rest => rest.isEmpty
  | .heardError _ _ _ rest => rest.isEmpty
  | .heard _ _ rest => rest.isEmpty
  | .passing => true
  | _ => false

/-- No network is given up before it is closed, and `close` is not called from
inside the factory, a subscription or the configuration of a candidate, an error
handler for a failed attempt, or a handler that has others after it. -/
def Undisturbed (c : Config) (e : Event) : Prop :=
  Parting c e ∧ (match e with
    | .close => ∀ f ∈ c.stack, f.isSpent
    | _ => True)

instance (c : Config) (e : Event) : Decidable (Undisturbed c e) := by
  unfold Undisturbed
  refine @instDecidableAnd _ _ inferInstance ?_
  split <;> infer_instance

/-- All inner networks are closed. -/
def Gone (s : ReconnectingNetwork) : Prop := ∀ n < s.created, (s.networks n).readyState = .closed

def Frame.isGivingUp : Frame → Bool
  | .givingUp _ => true
  | _ => false

structure Final (s : ReconnectingNetwork) (stack : List Frame) : Prop where
  ended : s.phase = .closed → s.timers = [] ∧ s.watchdog = false ∧ Gone s ∧ Detached s ∧
    ∀ f ∈ stack, f.isSpent ∨ f.isGivingUp
  shut : wasShut s.log → s.phase = .closed ∧ ∀ f ∈ stack, f.isSpent
  hushed : Hushed s.log

variable {s s' : ReconnectingNetwork} {stack rest : List Frame} {f : Frame} {c c' : Config} {e : Event}

theorem hushed_of_unshut {log : List Effect} (h : wasShut log = false) : Hushed log := by
  induction log with
  | nil => trivial
  | cons e older ih =>
    rw [wasShut, List.any_cons, Bool.or_eq_false_iff] at h
    exact ⟨fun _ => h.2, ih h.2⟩

/-! ## While it is not closed -/

/-- A step that closes nothing for good. -/
structure Onward (s s' : ReconnectingNetwork) : Prop where
  phase : s.phase ≠ .closed → s'.phase ≠ .closed
  log : ∃ effects, s'.log = effects ++ s.log ∧ wasShut effects = false

theorem Onward.silent (phase : s'.phase = s.phase) (log : s'.log = s.log) : Onward s s' :=
  ⟨fun hp => phase ▸ hp, [], log, rfl⟩

theorem Onward.trans {s'' : ReconnectingNetwork} (first : Onward s s') (second : Onward s' s'') :
    Onward s s'' := by
  obtain ⟨as, hs, unshut⟩ := first.log
  obtain ⟨bs, hs', unshut'⟩ := second.log
  refine ⟨fun hp => second.phase (first.phase hp), bs ++ as, ?_, ?_⟩
  · rw [hs', hs, List.append_assoc]
  · rw [wasShut, List.any_append, ← wasShut, ← wasShut, unshut, unshut', Bool.or_false]

/-- A step that first changed other things. -/
theorem Onward.before {s'' : ReconnectingNetwork} (h : Onward s' s'') (phase : s'.phase = s.phase)
    (log : s'.log = s.log) : Onward s s'' :=
  (Onward.silent phase log).trans h

theorem Mild.onward {r : ReconnectingNetwork × Option Frame} (h : Mild s r) : Onward s r.1 := by
  obtain ⟨effects, log, mild⟩ := h.log
  refine ⟨h.phase, effects, log, List.any_eq_false.mpr fun e he => ?_⟩
  have := mild e he
  cases e <;> simp_all [Effect.isMild, Effect.isShut]

theorem onward_heardRest (s : ReconnectingNetwork) (n : Nat) (raw : JSString) (handlers : List Nat) :
    Onward s (s.heardRest n raw handlers).1 := by
  cases handlers with
  | nil => exact .silent rfl rfl
  | cons handler rest => exact ⟨id, [.message n handler raw], rfl, rfl⟩

theorem onward_hear (s : ReconnectingNetwork) (n : Nat) (raw : JSString) :
    Onward s (s.hear n raw).1 :=
  (onward_heardRest { s with lastMessageAt := s.now } n raw _).before rfl rfl

theorem onward_resume (s : ReconnectingNetwork) (r : ReconnectingNetwork.Reply) (takes : f.takes r) :
    Onward s (s.resume f r).1 := by
  cases f with
  | heard n raw hs =>
    cases r with
    | returns => exact onward_heardRest s n raw hs
    | throws => exact .silent rfl rfl
    | network => cases takes
  | factory =>
    cases r with
    | network readyState hasOnOpen => exact ⟨id, [.created s.created], rfl, rfl⟩
    | returns => cases takes
    | throws => exact (mild_failAttempt s _ _).onward
  | _ => exact (mild_resume s r takes (by rintro _ _ rfl; cases takes) rfl).onward

/-- Every step but `close` and a timer. -/
theorem onward_step (hstep : c.step e = some c') (close : e ≠ .close) (timer : ∀ id, e ≠ .timer id) :
    Onward c.net c'.net := by
  cases Config.step_does hstep with
  | settles n =>
    exact (mild_settle (c.net.update n { c.net.networks n with
      readyState := .opened, opens := false })).onward.before rfl rfl
  | opens | closing | closes | queued | lost | advance | known => exact .silent rfl rfl
  | message n raw => exact onward_hear _ _ _
  | delivered n index =>
    exact (onward_hear (c.net.update n { c.net.networks n with
      queue := (c.net.networks n).queue.eraseIdx index }) n _).before rfl rfl
  | error n scope error => exact (mild_hearErrorRest _ _ _ _ _).onward
  | timer id => exact absurd rfl (timer id)
  | watch => exact (mild_watch _).onward
  | refuses | send | configure => exact ⟨id, [_], rfl, rfl⟩
  | close => exact absurd rfl close
  | subscribe channel handler | unsubscribe channel handler => cases channel <;> exact .silent rfl rfl
  | reply r f rest top takes => exact onward_resume c.net r takes

theorem Final.unshut (h : Final s stack) (phase : s.phase ≠ .closed) : wasShut s.log = false :=
  Bool.eq_false_iff.mpr fun shut => phase (h.shut shut).1

theorem final_open (phase : s.phase ≠ .closed) (unshut : wasShut s.log = false) : Final s stack :=
  ⟨fun hp => absurd hp phase, by simp [unshut], hushed_of_unshut unshut⟩

theorem Final.onward (h : Final s stack) (phase : s.phase ≠ .closed) (step : Onward s s')
    (stack' : List Frame) : Final s' stack' := by
  obtain ⟨effects, log, unshut⟩ := step.log
  refine final_open (step.phase phase) ?_
  rw [log, wasShut, List.any_append, ← wasShut, ← wasShut, unshut, h.unshut phase, Bool.or_false]

/-- Out of retries. -/
theorem final_giveUp (unarmed : s.timers = []) (off : s.watchdog = false)
    (gone : Gone s) (detached : Detached s) (unshut : wasShut s.log = false) (handlers : List Nat) :
    Final (s.giveUpRest handlers).1 ((s.giveUpRest handlers).2.toList ++ []) := by
  cases handlers with
  | nil =>
    exact ⟨fun _ => ⟨unarmed, off, gone, detached, by simp [ReconnectingNetwork.giveUpRest]⟩,
      fun hs => absurd hs (by simp [ReconnectingNetwork.giveUpRest,
        ReconnectingNetwork.clearHandlers, unshut]), hushed_of_unshut unshut⟩
  | cons handler rest =>
    have quiet : wasShut (s.giveUpRest (handler :: rest)).1.log = false := unshut
    refine ⟨fun _ => ⟨unarmed, off, gone, detached, ?_⟩, by simp [quiet], hushed_of_unshut quiet⟩
    exact fun f hf => .inr (List.mem_singleton.mp hf ▸ rfl)

/-- Out of retries, or on to the factory. -/
theorem Final.timer (h : Final s []) (o : Orderly s []) (p : Parted strict s []) {id : Nat}
    (fired : s.timers.any (·.1 = id)) :
    Final ({ s with timers := s.timers.filter (·.1 ≠ id) } : ReconnectingNetwork).attemptReconnect.1
      (({ s with timers := s.timers.filter (·.1 ≠ id) } :
        ReconnectingNetwork).attemptReconnect.2.toList ++ []) := by
  obtain ⟨x, hx, hid⟩ := List.any_eq_true.mp fired
  obtain ⟨timers, -, -, phase, -, detached⟩ := o.armed x hx
  have unarmed : s.timers.filter (·.1 ≠ id) = [] := by
    rw [timers]
    simpa using hid
  have gone : Gone s := by
    intro n hn
    by_cases hc : n = s.current
    · rw [hc]
      exact p.2.1 (.inl (by simp [timers]))
    · exact p.1 n hn hc
  have unshut := h.unshut (by simp [phase])
  unfold ReconnectingNetwork.attemptReconnect
  split
  · rename_i closed
    rw [show s.phase = .closed from closed] at phase
    cases phase
  · split
    · exact final_giveUp (s := { s with
        timers := s.timers.filter (·.1 ≠ id), phase := .closed, watchdog := false }) unarmed rfl
        gone detached unshut _
    · exact final_open (by simp [ReconnectingNetwork.record, phase])
        (by simpa [ReconnectingNetwork.record, wasShut, Effect.isShut] using unshut)

/-! ## Once it is closed -/

/-- Nothing of what `Final` reads changes but what is on its way. -/
theorem Final.keep (h : Final s stack) (phase : s'.phase = s.phase) (timers : s'.timers = s.timers)
    (watchdog : s'.watchdog = s.watchdog) (created : s'.created = s.created)
    (networks : ∀ n, (s'.networks n).readyState = (s.networks n).readyState ∧
      (s'.networks n).message = (s.networks n).message ∧ (s'.networks n).error = (s.networks n).error)
    (log : s'.log = s.log) : Final s' stack := by
  refine ⟨fun hp => ?_, ?_, log ▸ h.hushed⟩
  · obtain ⟨unarmed, off, gone, detached, ending⟩ := h.ended (phase ▸ hp)
    refine ⟨timers.trans unarmed, watchdog.trans off, fun n hn => ?_, fun n => ?_, ending⟩
    · rw [(networks n).1]
      exact gone n (created ▸ hn)
    · rw [(networks n).2.1, (networks n).2.2]
      exact detached n
  · rw [log, phase]
    exact h.shut

/-- Something is recorded that calls nothing. -/
theorem Final.record (h : Final s stack) {effect : Effect} (call : effect.isCall = false)
    (shut : effect.isShut = false) : Final (s.record effect) stack := by
  refine ⟨h.ended, fun hs => h.shut ?_, fun hc => ?_, h.hushed⟩
  · simpa [ReconnectingNetwork.record, wasShut, shut] using hs
  · rw [call] at hc
    cases hc

theorem Final.push (h : Final s stack) (spent : f.isSpent) : Final s (f :: stack) := by
  refine ⟨fun hp => ?_, fun hs => ?_, h.hushed⟩
  · obtain ⟨unarmed, off, gone, detached, ending⟩ := h.ended hp
    exact ⟨unarmed, off, gone, detached, List.forall_mem_cons.mpr ⟨.inl spent, ending⟩⟩
  · exact ⟨(h.shut hs).1, List.forall_mem_cons.mpr ⟨spent, (h.shut hs).2⟩⟩

theorem Final.pop (h : Final s (f :: rest)) : Final s rest := by
  refine ⟨fun hp => ?_, fun hs => ?_, h.hushed⟩
  · obtain ⟨unarmed, off, gone, detached, ending⟩ := h.ended hp
    exact ⟨unarmed, off, gone, detached, (List.forall_mem_cons.mp ending).2⟩
  · exact ⟨(h.shut hs).1, (List.forall_mem_cons.mp (h.shut hs).2).2⟩

/-- Of a call that is spent, nothing is left. -/
theorem Final.spent (h : Final s (f :: rest)) (phase : s.phase = .closed) (spent : f.isSpent)
    (giving : f.isGivingUp = false) (r : ReconnectingNetwork.Reply) (takes : f.takes r) :
    Final (s.resume f r).1 ((s.resume f r).2.toList ++ rest) := by
  have popped := h.pop
  cases r with
  | network =>
    cases f with
    | factory => cases spent
    | _ => cases takes
  | throws error =>
    cases f with
    | watchOpen n =>
      refine popped.keep rfl rfl rfl rfl (fun m => ?_) rfl
      simp only [ReconnectingNetwork.resume, ReconnectingNetwork.update]
      split
      · rename_i e
        exact e ▸ ⟨rfl, rfl, rfl⟩
      · exact ⟨rfl, rfl, rfl⟩
    | factory | subscribeMessage | subscribeError | configure | failing => cases spent
    | givingUp => cases giving
    | _ => exact popped
  | returns =>
    cases f with
    | factory | subscribeMessage | subscribeError | configure | failing => cases spent
    | givingUp => cases giving
    | watchOpen n => exact popped.keep rfl rfl rfl rfl (fun _ => ⟨rfl, rfl, rfl⟩) rfl
    | reconnected hs =>
      rw [List.isEmpty_iff.mp spent]
      exact popped
    | heard n raw hs =>
      rw [List.isEmpty_iff.mp spent]
      exact popped
    | heardError n scope error hs =>
      rw [List.isEmpty_iff.mp spent]
      simp only [ReconnectingNetwork.resume, ReconnectingNetwork.hearErrorRest,
        ReconnectingNetwork.onInnerDeath, phase]
      split <;> exact popped
    | passing => exact popped

theorem Final.givingUp {handlers : List Nat} (h : Final s (.givingUp handlers :: rest))
    (r : ReconnectingNetwork.Reply) (takes : Frame.takes (.givingUp handlers) r) :
    Final (s.resume (.givingUp handlers) r).1 ((s.resume (.givingUp handlers) r).2.toList ++ rest) := by
  have popped := h.pop
  cases r with
  | network => cases takes
  | throws => exact popped
  | returns =>
    cases handlers with
    | nil => exact popped.keep rfl rfl rfl rfl (fun _ => ⟨rfl, rfl, rfl⟩) rfl
    | cons handler hs =>
      have unshut : wasShut s.log = false := by
        refine Bool.eq_false_iff.mpr fun shut => ?_
        cases (h.shut shut).2 _ List.mem_cons_self
      refine ⟨fun hp => ?_, fun shut => ?_, fun _ => unshut, h.hushed⟩
      · obtain ⟨unarmed, off, gone, detached, ending⟩ := popped.ended hp
        exact ⟨unarmed, off, gone, detached, List.forall_mem_cons.mpr ⟨.inr rfl, ending⟩⟩
      · rw [show wasShut (s.resume (.givingUp (handler :: hs)) .returns).1.log = wasShut s.log from rfl,
          unshut] at shut
        cases shut

/-- **A step after the close** changes nothing that matters. -/
theorem Final.step_closed (h : Final c.net c.stack) (phase : c.net.phase = .closed)
    (undisturbed : Undisturbed c e) (hstep : c.step e = some c') : Final c'.net c'.stack := by
  obtain ⟨unarmed, off, gone, detached, ending⟩ := h.ended phase
  cases Config.step_does hstep with
  | settles n hn state | opens n hn state =>
    rw [gone n hn] at state
    cases state
  | closing n hn alive =>
    rw [gone n hn] at alive
    cases alive
  | closes n hn running => exact absurd (gone n hn) running
  | message n raw _ listening | queued n raw _ listening | error n scope error _ listening =>
    simp [detached n] at listening
  | delivered n index hn opened =>
    rw [gone n hn] at opened
    cases opened
  | lost n index =>
    refine h.keep rfl rfl rfl rfl (fun m => ?_) rfl
    simp only [ReconnectingNetwork.update]
    split
    · rename_i e
      exact e ▸ ⟨rfl, rfl, rfl⟩
    · exact ⟨rfl, rfl, rfl⟩
  | timer id _ fired => simp [unarmed] at fired
  | watch _ armed => simp [off] at armed
  | advance ms => exact h.keep rfl rfl rfl rfl (fun _ => ⟨rfl, rfl, rfl⟩) rfl
  | refuses data error => exact h.record rfl rfl
  | send data running => exact absurd phase running
  | configure options =>
    have kept : Final { c.net with
        configured := some ((c.net.configured.map (·.merge options)).getD options) } c.stack :=
      h.keep rfl rfl rfl rfl (fun _ => ⟨rfl, rfl, rfl⟩) rfl
    exact (kept.record rfl rfl).push (f := .passing) rfl
  | close =>
    rw [ReconnectingNetwork.close, if_pos phase]
    exact ⟨h.ended, fun _ => ⟨phase, undisturbed.2⟩, by rintro ⟨⟩, h.hushed⟩
  | known => exact h
  | subscribe channel handler | unsubscribe channel handler =>
    cases channel <;> exact h.keep rfl rfl rfl rfl (fun _ => ⟨rfl, rfl, rfl⟩) rfl
  | reply r f rest top takes =>
    rw [top] at h ending
    cases giving : f.isGivingUp with
    | false =>
      have spent := (ending f List.mem_cons_self).resolve_right (by simp [giving])
      exact h.spent phase spent giving r takes
    | true =>
      cases f <;> cases giving
      exact h.givingUp r takes

/-! ## Every run -/

theorem Final.close (h : Final s stack) (o : Orderly s stack) (p : Parted strict s stack)
    (phase : s.phase ≠ .closed) (spent : ∀ f ∈ stack, f.isSpent) : Final s.close stack := by
  have settled : ∀ f ∈ stack, f.isAttempt = false := by
    intro f hf
    have := spent f hf
    cases f <;> simp_all [Frame.isSpent, Frame.isAttempt]
  have detached := o.detach settled
  have unarmed : s.close.timers = [] := by
    refine o.close.unarmed ?_
    rw [ReconnectingNetwork.close, if_neg phase, ReconnectingNetwork.detach_eq]
    exact Phase.noConfusion
  have unshut := h.unshut phase
  rw [ReconnectingNetwork.detach_eq] at detached
  rw [ReconnectingNetwork.close, if_neg phase, ReconnectingNetwork.detach_eq] at unarmed ⊢
  refine ⟨fun _ => ⟨unarmed, rfl, fun n hn => ?_, fun n => ?_, fun f hf => .inl (spent f hf)⟩,
    fun _ => ⟨rfl, spent⟩, by rintro ⟨⟩, h.hushed⟩
  · change (if n = s.current then _ else _ : Inner).readyState = .closed
    split
    · rfl
    · rename_i hc
      exact p.1 n hn hc
  · change (if n = s.current then _ else _ : Inner).message = false ∧
      (if n = s.current then _ else _ : Inner).error = false
    split
    · exact ⟨rfl, (detached s.current).2⟩
    · exact detached n

theorem Final.step (h : Final c.net c.stack) (o : Orderly c.net c.stack)
    (p : Parted strict c.net c.stack) (undisturbed : Undisturbed c e) (hstep : c.step e = some c') :
    Final c'.net c'.stack := by
  by_cases phase : c.net.phase = .closed
  · exact h.step_closed phase undisturbed hstep
  · by_cases close : e = .close
    · subst close
      cases hstep
      exact h.close o p phase undisturbed.2
    · by_cases timer : ∃ id, e = .timer id
      · obtain ⟨id, rfl⟩ := timer
        simp only [Config.step, Option.ite_none_right_eq_some, Option.some.injEq] at hstep
        obtain ⟨⟨empty, fired⟩, rfl⟩ := hstep
        rw [List.isEmpty_iff.mp empty] at h o p
        exact h.timer o p fired
      · exact h.onward phase (onward_step hstep close fun id he => timer ⟨id, he⟩) _

variable {options : ReconnectOptions} {readyState : SocketReadyState} {hasOnOpen : Bool} {now : Nat}
  {es : List Event}

/-- **The close is final.** If no network is given up before it is closed and
`close` is called from inside no call that goes on, then from its return on the
phase is closed, no timer is armed, every inner network is closed, and neither
the factory nor a handler is called. -/
theorem close_is_final
    (run : Run Config.step Undisturbed (start options readyState hasOnOpen now) es c) :
    (wasShut c.net.log → c.net.phase = .closed ∧ c.net.timers = [] ∧ Gone c.net) ∧
      Hushed c.net.log := by
  have first : Orderly (start options readyState hasOnOpen now).net [] ∧
      Parted False (start options readyState hasOnOpen now).net [] ∧
      Final (start options readyState hasOnOpen now).net [] :=
    ⟨orderly_start .., parted_start .., final_open (by simp [start, ReconnectingNetwork.create]) rfl⟩
  have step : ∀ c e c', Orderly c.net c.stack ∧ Parted False c.net c.stack ∧ Final c.net c.stack →
      Undisturbed c e → Config.step c e = some c' →
      Orderly c'.net c'.stack ∧ Parted False c'.net c'.stack ∧ Final c'.net c'.stack := by
    rintro c e c' ⟨o, p, h⟩ undisturbed hstep
    exact ⟨o.step hstep, p.step o undisturbed.1 False.elim hstep, h.step o p undisturbed hstep⟩
  obtain ⟨-, -, final⟩ := run.invariant _ step first
  refine ⟨fun shut => ?_, final.hushed⟩
  have phase := (final.shut shut).1
  obtain ⟨unarmed, -, gone, -⟩ := final.ended phase
  exact ⟨phase, unarmed, gone⟩

/-! The close of a decorator that waits for a timer, and of one inside its
factory. -/

theorem close_is_final_in_backoff :
    ∃ c, exec Config.step (start .default .opened true 0) [.closes 0, .watch, .close] = some c ∧
      c.net.phase = .closed ∧ c.net.timers = [] := by
  obtain ⟨c, run⟩ := Run.of_allGood Config.step Undisturbed (start .default .opened true 0)
    [.closes 0, .watch, .close] (by decide +kernel)
  have shut := run.read (f := fun c => wasShut c.net.log) (a := true) (by decide +kernel)
  obtain ⟨phase, unarmed, -⟩ := (close_is_final run).1 shut
  exact ⟨c, run.exec_eq, phase, unarmed⟩

theorem closed_in_factory_connects :
    ¬ ∀ es c, exec Config.step (start .default .opened true 0) es = some c →
      (wasShut c.net.log → c.net.phase = .closed ∧ c.net.timers = [] ∧ Gone c.net) ∧
        Hushed c.net.log := by
  intro h
  have run : ((exec Config.step (start .default .opened true 0) [.closes 0, .watch, .timer 0, .close,
      .reply (.network .connecting true), .reply .returns, .reply .returns, .reply .returns]).map
      fun c => (wasShut c.net.log, c.net.phase)) = some (true, .connecting) := by decide +kernel
  obtain ⟨c, hc, read⟩ := Option.map_eq_some_iff.mp run
  rw [Prod.mk.injEq] at read
  have := ((h _ c hc).1 read.1).1
  rw [read.2] at this
  cases this

end LemonModel.Reconnecting
