import LemonModel.Socket.Generations

/-!
# Replaced networks

As long as no network is given up before it is closed, all inner networks but
the current one are closed (`Parted`), and then nothing is written to or heard
from another one.
-/

namespace LemonModel.Reconnecting

open Text

/-- The candidate is through with its subscriptions. -/
def ReconnectingNetwork.isAttached (s : ReconnectingNetwork) : Frame → ReconnectingNetwork.Reply → Bool
  | .subscribeError _, .returns => s.configured.isNone
  | .configure _, .returns => true
  | _, _ => false

/-- No network is given up before it is closed: the watchdog finds none that is
closing, nor one that is idle but not closed, and no candidate is closing once
it is subscribed. -/
def Parting (c : Config) : Event → Prop
  | .watch => c.net.inner.readyState ≠ .closing ∧
    (c.net.phase = .connected → c.net.idle → c.net.inner.readyState = .closed)
  | .reply r => ∀ f ∈ c.stack.head?, c.net.isAttached f r → c.net.inner.readyState ≠ .closing
  | _ => True

instance (c : Config) (e : Event) : Decidable (Parting c e) := by
  unfold Parting
  split <;> infer_instance

/-- All networks but the current one are closed, and that one too while another
is waited for; with `strict`, in all of a backoff. -/
def Parted (strict : Prop) (s : ReconnectingNetwork) (stack : List Frame) : Prop :=
  (∀ n < s.created, n ≠ s.current → (s.networks n).readyState = .closed) ∧
    (s.timers ≠ [] ∨ .factory ∈ stack ∨ (∃ f ∈ stack, f.isFailing) → s.inner.readyState = .closed) ∧
    (strict → s.phase = .backoff → (∀ f ∈ stack, f.isAttempt = false) →
      s.inner.readyState = .closed)

/-- What a method leaves behind on top of `stack`. -/
def Parts (strict : Prop) (stack : List Frame) (r : ReconnectingNetwork × Option Frame) : Prop :=
  Parted strict r.1 (r.2.toList ++ stack)

variable {strict : Prop} {s s' : ReconnectingNetwork} {stack rest : List Frame} {f : Frame}

theorem Parted.closed (h : Parted strict s stack) (closed : s.inner.readyState = .closed)
    (stack' : List Frame) : Parted strict s stack' :=
  ⟨h.1, fun _ => closed, fun _ _ _ => closed⟩

theorem Parted.push (h : Parted strict s stack) (factory : f ≠ .factory)
    (failing : f.isFailing = false) :
    Parted strict s (f :: stack) := by
  refine ⟨h.1, fun hp => h.2.1 ?_, fun hs phase hf =>
    h.2.2 hs phase fun g hg => hf g (List.mem_cons_of_mem _ hg)⟩
  rcases hp with armed | asking | ⟨g, hg, hf⟩
  · exact .inl armed
  · exact .inr (.inl ((List.mem_cons.mp asking).resolve_left factory.symm))
  · rcases List.mem_cons.mp hg with rfl | hg
    · rw [failing] at hf
      cases hf
    · exact .inr (.inr ⟨g, hg, hf⟩)

/-- The next call of an attempt. -/
theorem Parted.goOn {g : Frame} (h : Parted strict s [f]) (factory : g ≠ .factory)
    (attempt : g.isAttempt) : Parted strict s [g] := by
  refine ⟨h.1, fun hi => h.2.1 ?_, fun _ _ hf => ?_⟩
  · rcases hi with armed | asking | ⟨k, hk, failing⟩
    · exact .inl armed
    · exact absurd (List.mem_singleton.mp asking).symm factory
    · obtain rfl := List.mem_singleton.mp hk
      cases k <;> simp_all [Frame.isAttempt, Frame.isFailing]
  · rw [hf g (List.mem_singleton.mpr rfl)] at attempt
    cases attempt

theorem Parted.pop (h : Parted strict s (f :: rest))
    (attempt : strict → f.isAttempt → s.inner.readyState = .closed) : Parted strict s rest := by
  refine ⟨h.1, fun hp => h.2.1 ?_, fun hs phase hf => ?_⟩
  rcases hp with armed | asking | ⟨g, hg, hf⟩
  · exact .inl armed
  · exact .inr (.inl (List.mem_cons_of_mem _ asking))
  · exact .inr (.inr ⟨g, List.mem_cons_of_mem _ hg, hf⟩)
  · cases ha : f.isAttempt with
    | true => exact attempt hs ha
    | false => exact h.2.2 hs phase (List.forall_mem_cons.mpr ⟨ha, hf⟩)

/-- The networks change, and none that was closed comes back. -/
theorem Parted.networks (h : Parted strict s stack) {networks : Nat → Inner}
    (closed : ∀ n, (s.networks n).readyState = .closed → (networks n).readyState = .closed) :
    Parted strict { s with networks } stack :=
  ⟨fun n hn hc => closed n (h.1 n hn hc), fun hp => closed _ (h.2.1 hp), fun hs phase hf =>
    closed _ (h.2.2 hs phase hf)⟩

theorem Parted.update (h : Parted strict s stack) {n : Nat} {i : Inner}
    (closed : (s.networks n).readyState = .closed → i.readyState = .closed) :
    Parted strict (s.update n i) stack := by
  refine h.networks fun m hm => ?_
  split
  · rename_i e
    exact closed (e ▸ hm)
  · exact hm

theorem Parted.detach (h : Parted strict s stack) : Parted strict s.detach stack := by
  rw [ReconnectingNetwork.detach_eq]
  exact h.networks fun _ => id

theorem Parted.beginBackoff (h : Parted strict s stack) (closed : s.inner.readyState = .closed) :
    Parted strict s.beginBackoff stack := by
  have kept := (h.closed closed stack).detach
  rw [ReconnectingNetwork.beginBackoff]
  rw [ReconnectingNetwork.detach_eq] at kept ⊢
  exact ⟨kept.1, fun _ => closed, fun _ _ _ => closed⟩

theorem Parted.failRest (h : Parted strict s stack) (closed : s.inner.readyState = .closed)
    (scope : Scope)
    (error : JSString) (handlers : List Nat) :
    Parts strict stack (s.failRest scope error handlers) := by
  cases handlers with
  | nil => exact ⟨h.1, fun _ => closed, fun _ _ _ => closed⟩
  | cons handler rest => exact ⟨h.1, fun _ => closed, fun _ _ _ => closed⟩

theorem Parted.failAttempt (h : Parted strict s stack) (closed : s.inner.readyState = .closed)
    (error : JSString) (scope : Scope) : Parts strict stack (s.failAttempt error scope) := by
  have kept := (h.closed closed stack).detach
  rw [ReconnectingNetwork.failAttempt]
  refine Parted.failRest ?_ ?_ _ _ _ <;>
    rw [ReconnectingNetwork.countFailure]
  · rw [ReconnectingNetwork.detach_eq] at kept ⊢
    exact kept
  · rw [ReconnectingNetwork.detach_eq]
    exact closed

theorem Parted.onInnerDeath (h : Parted strict s stack)
    (closed : s.phase = .connected ∨ s.phase = .connecting → s.inner.readyState = .closed) :
    Parts strict stack s.onInnerDeath := by
  unfold ReconnectingNetwork.onInnerDeath
  split
  · rename_i phase
    exact h.beginBackoff (closed (.inl phase))
  · rename_i phase
    exact h.failAttempt (closed (.inr phase)) _ _
  · exact h

theorem Parted.reconnectedRest (h : Parted strict s stack) (handlers : List Nat) :
    Parts strict stack (s.reconnectedRest handlers) := by
  cases handlers with
  | nil => exact h
  | cons handler rest => exact Parted.push h (by simp) rfl

/-- The phase changes, not to a backoff. -/
theorem Parted.phase (h : Parted strict s stack) {p : Phase} (hp : p ≠ .backoff) :
    Parted strict { s with phase := p } stack :=
  ⟨h.1, h.2.1, fun _ hb => absurd hb hp⟩

/-- Outside of a backoff the stack may shrink at will. -/
theorem Parted.off (h : Parted strict s [f]) (hp : s.phase ≠ .backoff) : Parted strict s [] := by
  refine ⟨h.1, fun hi => h.2.1 ?_, fun _ hb => absurd hb hp⟩
  simpa using hi.imp_right fun h => by simp at h

theorem Parted.settle (h : Parted strict s stack) : Parts strict stack s.settleReconnected := by
  rw [ReconnectingNetwork.settleReconnected]
  refine Parted.reconnectedRest ?_ _
  rw [ReconnectingNetwork.countSuccess, ReconnectingNetwork.dropOpen_eq]
  exact (h.networks fun _ => id).phase (p := .connected) (by simp)

theorem Parted.watch (h : Parted strict s [])
    (parting : s.inner.readyState ≠ .closing ∧
      (s.phase = .connected → s.idle → s.inner.readyState = .closed)) : Parts strict [] s.watch := by
  have dead : s.inner.readyState.isDead → s.inner.readyState = .closed := by
    intro hd
    cases hs : s.inner.readyState <;> simp_all [SocketReadyState.isDead]
  unfold ReconnectingNetwork.watch
  split
  · rename_i phase
    split
    · rename_i given
      rw [Bool.or_eq_true] at given
      exact h.beginBackoff (given.elim dead (parting.2 phase))
    · exact h
  · split
    · exact h.settle
    · split
      · rename_i given
        exact h.onInnerDeath fun _ => dead given
      · exact h
  · exact h

theorem Parted.giveUpRest (h : Parted strict s stack) (handlers : List Nat) :
    Parts strict stack (s.giveUpRest handlers) := by
  cases handlers with
  | nil => exact h
  | cons handler rest => exact Parted.push h (by simp) rfl

theorem Parted.attemptReconnect (h : Parted strict s []) (closed : s.inner.readyState = .closed) :
    Parts strict [] s.attemptReconnect := by
  unfold ReconnectingNetwork.attemptReconnect
  split
  · exact h
  · split
    · exact Parted.giveUpRest (s := { s with phase := .closed, watchdog := false })
        (h.phase (p := .closed) (by simp)) _
    · exact h.closed closed _

theorem Parted.adopt (h : Parted strict s [.factory]) (readyState : SocketReadyState) (hasOnOpen : Bool)
    (unarmed : s.timers = []) : Parts strict [] (s.adopt readyState hasOnOpen) := by
  have closed := h.2.1 (.inr (.inl (List.mem_singleton.mpr rfl)))
  refine ⟨?_, ?_, fun _ _ hf => ?_⟩
  · intro n hn hc
    change (if n = s.created then _ else s.networks n).readyState = .closed
    rw [if_neg (show n ≠ s.created from hc)]
    by_cases old : n = s.current
    · rw [old]
      exact closed
    · have hn : n < s.created + 1 := hn
      exact h.1 n (Nat.lt_of_le_of_ne (Nat.le_of_lt_succ hn) hc) old
  · rintro (armed | asking | ⟨f, hf, failing⟩)
    · exact absurd unarmed armed
    · cases List.mem_singleton.mp asking
    · obtain rfl := List.mem_singleton.mp hf
      cases failing
  · cases hf _ (List.mem_singleton.mpr rfl)

theorem Parted.awaitOpen (h : Parted strict s [f]) (parting : s.inner.readyState ≠ .closing) :
    Parts strict [] s.awaitOpen := by
  have kept : Parted strict { s with phase := .connecting } [] :=
    (h.phase (p := .connecting) (by simp)).off (by simp)
  unfold ReconnectingNetwork.awaitOpen
  dsimp only
  split
  · exact kept.settle
  · split
    · exact Parted.push (kept.update (n := s.current) (i := { s.inner with opens := true }) id)
        (by simp) rfl
    · exact kept
  · rename_i dead
    refine kept.onInnerDeath fun _ => ?_
    change s.inner.readyState = .closed
    cases hs : s.inner.readyState <;> simp_all [ReconnectingNetwork.inner]

theorem Parted.heardRest (h : Parted strict s stack) (n : Nat) (raw : JSString) (handlers : List Nat) :
    Parts strict stack (s.heardRest n raw handlers) := by
  cases handlers with
  | nil => exact h
  | cons handler rest => exact Parted.push h (by simp) rfl

theorem Parted.hear (h : Parted strict s stack) (n : Nat) (raw : JSString) :
    Parts strict stack (s.hear n raw) :=
  Parted.heardRest (s := { s with lastMessageAt := s.now }) h n raw _

theorem Parted.hearErrorRest (h : Parted strict s stack) {scope : Scope}
    (closed : scope.isClose → s.inner.readyState = .closed) (n : Nat) (error : JSString)
    (handlers : List Nat) : Parts strict stack (s.hearErrorRest n scope error handlers) := by
  cases handlers with
  | nil =>
    rw [ReconnectingNetwork.hearErrorRest]
    split
    · rename_i hs
      exact h.onInnerDeath fun _ => closed hs
    · exact h
  | cons handler rest => exact Parted.push h (by simp) rfl

theorem Parted.close (h : Parted strict s stack) : Parted strict s.close stack := by
  unfold ReconnectingNetwork.close
  split
  · exact h
  · have off : Parted strict
      ({ s with phase := .closed, watchdog := false } : ReconnectingNetwork).disarm
        stack := by
      refine ⟨h.1, fun hp => h.2.1 (hp.imp_left fun armed unarmed => armed ?_), by rintro - ⟨⟩⟩
      change s.timers.filter _ = []
      rw [unarmed, List.filter_nil]
    exact off.detach.update (n := (ReconnectingNetwork.detach _).current)
      (i := { (ReconnectingNetwork.detach _).inner with
        readyState := .closed, message := false, opens := false }) fun _ => rfl

theorem Parted.resume (o : Orderly s (f :: rest)) (h : Parted strict s (f :: rest))
    (r : ReconnectingNetwork.Reply) (takes : f.takes r)
    (parting : s.isAttached f r → s.inner.readyState ≠ .closing)
    (unrefused : strict → f.isAttempt → ∀ error, r = .throws error → s.inner.readyState = .closed) :
    Parts strict rest (s.resume f r) := by
  cases f with
  | factory =>
    obtain rfl := o.stacked.1 rfl
    cases r with
    | returns => cases takes
    | throws error =>
      have closed := h.2.1 (.inr (.inl List.mem_cons_self))
      exact (h.closed closed []).failAttempt closed _ _
    | network readyState hasOnOpen =>
      exact h.adopt readyState hasOnOpen (o.unarmed_busy List.mem_cons_self (.inl rfl))
  | subscribeMessage n =>
    obtain rfl := o.stacked.1 rfl
    cases r with
    | returns =>
      exact Parted.goOn (g := .subscribeError n)
        (s := ReconnectingNetwork.update { s with unsubscribeMessage := some n } n
          { s.networks n with error := true }) (h.update id) (by simp) rfl
    | throws error => exact (h.pop fun hs ha => unrefused hs ha error rfl).update id
    | network => cases takes
  | subscribeError n =>
    obtain rfl := o.stacked.1 rfl
    cases r with
    | returns =>
      simp only [ReconnectingNetwork.resume]
      split
      · exact Parted.goOn (s := { s with unsubscribeError := some n }) h (by simp) rfl
      · rename_i none
        exact Parted.awaitOpen (s := { s with unsubscribeError := some n }) h
          (parting (by simpa [ReconnectingNetwork.isAttached] using none))
    | throws error => exact (h.pop fun hs ha => unrefused hs ha error rfl).update id
    | network => cases takes
  | configure n =>
    obtain rfl := o.stacked.1 rfl
    cases r with
    | returns => exact h.awaitOpen (parting rfl)
    | throws error => exact h.pop fun hs ha => unrefused hs ha error rfl
    | network => cases takes
  | watchOpen n =>
    have popped := h.pop (by rintro - ⟨⟩)
    cases r with
    | returns => exact popped
    | throws => exact popped.update id
    | network => cases takes
  | failing scope error hs =>
    have popped := h.pop (by rintro - ⟨⟩)
    cases r with
    | returns =>
      exact popped.failRest (h.2.1 (.inr (.inr ⟨_, List.mem_cons_self, rfl⟩))) _ _ _
    | throws => exact popped
    | network => cases takes
  | givingUp hs =>
    have popped := h.pop (by rintro - ⟨⟩)
    cases r with
    | returns => exact popped.giveUpRest hs
    | throws => exact popped
    | network => cases takes
  | reconnected hs =>
    have popped := h.pop (by rintro - ⟨⟩)
    cases r with
    | returns => exact popped.reconnectedRest hs
    | throws => exact popped
    | network => cases takes
  | heardError n scope error hs =>
    obtain rfl := o.own _ List.mem_cons_self n rfl
    have popped := h.pop (by rintro - ⟨⟩)
    cases r with
    | returns =>
      exact popped.hearErrorRest (o.reported _ scope error hs List.mem_cons_self) _ _ _
    | throws => exact popped
    | network => cases takes
  | heard n raw hs =>
    have popped := h.pop (by rintro - ⟨⟩)
    cases r with
    | returns => exact popped.heardRest n raw hs
    | throws => exact popped
    | network => cases takes
  | passing =>
    have popped := h.pop (by rintro - ⟨⟩)
    cases r with
    | network => cases takes
    | _ => exact popped

/-- **No network is left behind open**, if none is given up before it is closed. -/
theorem Parted.step {c c' : Config} {e : Event} (o : Orderly c.net c.stack)
    (h : Parted strict c.net c.stack) (parting : Parting c e)
    (unrefused : strict → ∀ error, e = .reply (.throws error) → ∀ f ∈ c.stack.head?, f.isAttempt →
      c.net.inner.readyState = .closed) (hstep : c.step e = some c') :
    Parted strict c'.net c'.stack := by
  cases Config.step_does hstep with
  | settles n _ state =>
    have kept := h.update (n := n)
      (i := { c.net.networks n with readyState := .opened, opens := false }) (by simp [state])
    exact kept.settle
  | opens n _ state => exact h.update (by simp [state])
  | closing n _ alive =>
    refine h.update fun closed => ?_
    simp [closed, SocketReadyState.isDead] at alive
  | closes n => exact h.update fun _ => rfl
  | message n raw => exact h.hear n raw
  | queued n raw => exact h.update id
  | delivered n index =>
    have kept := h.update (n := n)
      (i := { c.net.networks n with queue := (c.net.networks n).queue.eraseIdx index }) id
    exact kept.hear n _
  | lost n index => exact h.update id
  | error n scope error _ listening closed =>
    obtain rfl : n = c.net.current := by
      by_contra hn
      rw [(o.lone n hn).2] at listening
      cases listening
    exact h.hearErrorRest closed _ error _
  | timer id empty fired =>
    have closed := h.2.1 (.inl fun unarmed => by simp [unarmed] at fired)
    rw [empty] at h
    exact Parted.attemptReconnect (s := { c.net with timers := c.net.timers.filter (·.1 ≠ id) })
      ⟨h.1, fun _ => closed, fun _ _ _ => closed⟩ closed
  | watch empty =>
    rw [empty] at h
    exact h.watch parting
  | advance ms => exact h
  | refuses data error => exact h
  | send data => exact Parted.push (s := c.net.record _) h (by simp) rfl
  | configure options => exact Parted.push (s := (c.net.configure options).1) h (by simp) rfl
  | close => exact h.close
  | known => exact h
  | subscribe channel handler | unsubscribe channel handler => cases channel <;> exact h
  | reply r f rest top takes =>
    rw [top] at o h
    refine h.resume o r takes (parting f (by rw [top]; rfl)) fun hs ha error hr => ?_
    exact unrefused hs error (by rw [hr]) f (by rw [top]; rfl) ha

/-! ## What is written and heard -/

/-- The network created last. -/
def newest : List Effect → Nat
  | [] => 0
  | .created n :: _ => n
  | _ :: older => newest older

/-- Nothing was written in a backoff or once closed, and all that was written or
handed to a handler went to, or came from, the network created last by then. -/
def Loyal : List Effect → Prop
  | [] => True
  | .wrote phase n _ :: older =>
    phase ≠ .backoff ∧ phase ≠ .closed ∧ n = newest older ∧ Loyal older
  | .message n _ _ :: older => n = newest older ∧ Loyal older
  | _ :: older => Loyal older

/-- Neither about a network nor the end of `close`. -/
def Effect.isMild : Effect → Bool
  | .created _ => false
  | .wrote .. => false
  | .message .. => false
  | .shut => false
  | _ => true

def Frame.isHeard : Frame → Bool
  | .heard .. => true
  | _ => false

/-- A method that creates, writes and hears nothing, and closes nothing for good. -/
structure Mild (s : ReconnectingNetwork) (r : ReconnectingNetwork × Option Frame) : Prop where
  current : r.1.current = s.current
  phase : s.phase ≠ .closed → r.1.phase ≠ .closed
  log : ∃ effects, r.1.log = effects ++ s.log ∧ ∀ e ∈ effects, e.isMild
  frame : ∀ f ∈ r.2, f.isHeard = false

theorem Mild.silent {t : ReconnectingNetwork} (current : t.current = s.current)
    (phase : s.phase ≠ .closed → t.phase ≠ .closed) (log : t.log = s.log) : Mild s (t, none) :=
  ⟨current, phase, ⟨[], log, by simp⟩, by simp⟩

theorem Mild.trans {t : ReconnectingNetwork} {r : ReconnectingNetwork × Option Frame}
    (first : Mild s (t, none)) (second : Mild t r) : Mild s r := by
  obtain ⟨as, hs, mild⟩ := first.log
  obtain ⟨bs, ht, mild'⟩ := second.log
  refine ⟨second.current.trans first.current, fun hp => second.phase (first.phase hp),
    ⟨bs ++ as, ?_, ?_⟩, second.frame⟩
  · rw [ht, List.append_assoc]
    exact congrArg (bs ++ ·) hs
  · exact List.forall_mem_append.mpr ⟨mild', mild⟩

/-- A method that first changed other things. -/
theorem Mild.before {t : ReconnectingNetwork} {r : ReconnectingNetwork × Option Frame} (h : Mild t r)
    (current : t.current = s.current) (phase : s.phase ≠ .closed → t.phase ≠ .closed)
    (log : t.log = s.log) : Mild s r :=
  (Mild.silent current phase log).trans h

/-- A handler is called. -/
theorem mild_call (s : ReconnectingNetwork) {effect : Effect} (mild : effect.isMild = true)
    (heard : f.isHeard = false) : Mild s (s.record effect, some f) :=
  ⟨rfl, id, ⟨[effect], rfl, by simpa using mild⟩, by simpa using heard⟩

theorem mild_detach (s : ReconnectingNetwork) : Mild s (s.detach, none) := by
  rw [ReconnectingNetwork.detach_eq]
  exact .silent rfl id rfl

theorem mild_beginBackoff (s : ReconnectingNetwork) : Mild s (s.beginBackoff, none) := by
  have detached := mild_detach s
  rw [ReconnectingNetwork.beginBackoff]
  exact detached.trans (.silent rfl (by simp [ReconnectingNetwork.arm]) rfl)

theorem mild_failRest (s : ReconnectingNetwork) (scope : Scope) (error : JSString)
    (handlers : List Nat) : Mild s (s.failRest scope error handlers) := by
  cases handlers with
  | nil => exact .silent rfl (by simp [ReconnectingNetwork.arm]) rfl
  | cons handler rest => exact mild_call s rfl rfl

theorem mild_failAttempt (s : ReconnectingNetwork) (error : JSString) (scope : Scope) :
    Mild s (s.failAttempt error scope) := by
  have counted : Mild s.detach (s.countFailure, none) :=
    ⟨rfl, id, ⟨[.failed], rfl, by simp [Effect.isMild]⟩, by simp⟩
  exact (mild_detach s).trans (counted.trans (mild_failRest _ _ _ _))

theorem mild_onInnerDeath (s : ReconnectingNetwork) : Mild s s.onInnerDeath := by
  unfold ReconnectingNetwork.onInnerDeath
  split
  · exact mild_beginBackoff s
  · exact mild_failAttempt s _ _
  · exact .silent rfl id rfl

theorem mild_reconnectedRest (s : ReconnectingNetwork) (handlers : List Nat) :
    Mild s (s.reconnectedRest handlers) := by
  cases handlers with
  | nil => exact .silent rfl id rfl
  | cons handler rest => exact mild_call s rfl rfl

theorem mild_settle (s : ReconnectingNetwork) : Mild s s.settleReconnected := by
  have counted : Mild s (s.countSuccess, none) := by
    rw [ReconnectingNetwork.countSuccess, ReconnectingNetwork.dropOpen_eq]
    exact ⟨rfl, by simp [ReconnectingNetwork.record], ⟨[.succeeded], rfl, by simp [Effect.isMild]⟩,
      by simp⟩
  exact counted.trans (mild_reconnectedRest _ _)

theorem mild_watch (s : ReconnectingNetwork) : Mild s s.watch := by
  unfold ReconnectingNetwork.watch
  split
  · split
    · exact mild_beginBackoff s
    · exact .silent rfl id rfl
  · split
    · exact mild_settle s
    · split
      · exact mild_onInnerDeath s
      · exact .silent rfl id rfl
  · exact .silent rfl id rfl

theorem mild_giveUpRest (s : ReconnectingNetwork) (handlers : List Nat) :
    Mild s (s.giveUpRest handlers) := by
  cases handlers with
  | nil => exact .silent rfl id rfl
  | cons handler rest => exact mild_call s rfl rfl

theorem mild_awaitOpen (s : ReconnectingNetwork) : Mild s s.awaitOpen := by
  refine Mild.before (t := { s with phase := .connecting }) ?_ rfl (by simp) rfl
  unfold ReconnectingNetwork.awaitOpen
  dsimp only
  split
  · exact mild_settle _
  · split
    · exact ⟨rfl, id, ⟨[], rfl, by simp⟩, by simp [Frame.isHeard]⟩
    · exact .silent rfl id rfl
  · exact mild_onInnerDeath _

theorem mild_hearErrorRest (s : ReconnectingNetwork) (n : Nat) (scope : Scope) (error : JSString)
    (handlers : List Nat) : Mild s (s.hearErrorRest n scope error handlers) := by
  cases handlers with
  | nil =>
    rw [ReconnectingNetwork.hearErrorRest]
    split
    · exact mild_onInnerDeath s
    · exact .silent rfl id rfl
  | cons handler rest => exact mild_call s rfl rfl

theorem close_shuts (s : ReconnectingNetwork) :
    s.close.current = s.current ∧ s.close.log = .shut :: s.log := by
  unfold ReconnectingNetwork.close
  split
  · exact ⟨rfl, rfl⟩
  · rw [ReconnectingNetwork.detach_eq]
    exact ⟨rfl, rfl⟩

/-- A call that comes back, but for the factory and a message handler. -/
theorem mild_resume (s : ReconnectingNetwork) (r : ReconnectingNetwork.Reply) (takes : f.takes r)
    (factory : ∀ readyState hasOnOpen, r ≠ .network readyState hasOnOpen) (heard : f.isHeard = false) :
    Mild s (s.resume f r) := by
  cases r with
  | network readyState hasOnOpen => exact absurd rfl (factory readyState hasOnOpen)
  | throws error =>
    cases f with
    | factory => exact mild_failAttempt s _ _
    | _ => exact .silent rfl id rfl
  | returns =>
    cases f with
    | factory => cases takes
    | subscribeMessage n => exact ⟨rfl, id, ⟨[], rfl, by simp⟩, by rintro f ⟨⟩; rfl⟩
    | subscribeError n =>
      simp only [ReconnectingNetwork.resume]
      split
      · exact (mild_call { s with unsubscribeError := some n } rfl rfl).before rfl id rfl
      · exact (mild_awaitOpen { s with unsubscribeError := some n }).before rfl id rfl
    | configure n => exact mild_awaitOpen s
    | watchOpen n => exact .silent rfl id rfl
    | failing scope error hs => exact mild_failRest s _ _ _
    | givingUp hs => exact mild_giveUpRest s hs
    | reconnected hs => exact mild_reconnectedRest s hs
    | heardError n scope error hs => exact mild_hearErrorRest s n scope error hs
    | heard n raw hs => cases heard
    | passing => exact .silent rfl id rfl

/-- Every message that is being handed out came from the current network. -/
structure Tidy (s : ReconnectingNetwork) (stack : List Frame) : Prop where
  loyal : Loyal s.log
  newest : newest s.log = s.current
  heard : ∀ n raw handlers, .heard n raw handlers ∈ stack → n = s.current

theorem mild_log {effects log : List Effect} (mild : ∀ e ∈ effects, e.isMild) (h : Loyal log) :
    Loyal (effects ++ log) ∧ newest (effects ++ log) = newest log := by
  induction effects with
  | nil => exact ⟨h, rfl⟩
  | cons e effects ih =>
    obtain ⟨he, rest⟩ := List.forall_mem_cons.mp mild
    cases e with
    | created | wrote | message | shut => cases he
    | _ => exact ih rest

theorem Tidy.mild {r : ReconnectingNetwork × Option Frame} (h : Tidy s stack) (mild : Mild s r) :
    Tidy r.1 (r.2.toList ++ stack) := by
  obtain ⟨effects, log, plain⟩ := mild.log
  obtain ⟨loyal, newest⟩ := mild_log plain h.loyal
  refine ⟨log ▸ loyal, ?_, fun n raw handlers hf => ?_⟩
  · rw [log, newest, mild.current, h.newest]
  · rw [mild.current]
    rcases List.mem_append.mp hf with hf | hf
    · cases mild.frame _ (Option.mem_toList.mp hf)
    · exact h.heard n raw handlers hf

theorem Tidy.heardRest (h : Tidy s stack) (raw : JSString) (handlers : List Nat) :
    Tidy (s.heardRest s.current raw handlers).1
      ((s.heardRest s.current raw handlers).2.toList ++ stack) := by
  cases handlers with
  | nil => exact h
  | cons handler rest =>
    refine ⟨⟨h.newest.symm, h.loyal⟩, h.newest, fun n raw hs hf => ?_⟩
    rcases List.mem_cons.mp hf with hf | hf
    · cases hf
      rfl
    · exact h.heard n raw hs hf

theorem Tidy.hear (h : Tidy s stack) {n : Nat} (hn : n = s.current) (raw : JSString) :
    Tidy (s.hear n raw).1 ((s.hear n raw).2.toList ++ stack) := by
  subst hn
  exact Tidy.heardRest (s := { s with lastMessageAt := s.now }) ⟨h.loyal, h.newest, h.heard⟩ raw _

/-! ## The run -/

/-- No network is given up before it is closed, no candidate that is not closed
refuses a subscription or its configuration, and nothing is sent from inside such
a call. -/
def Careful (c : Config) (e : Event) : Prop :=
  Parting c e ∧
    (match e with
      | .reply (.throws _) => ∀ f ∈ c.stack.head?, f.isAttempt → c.net.inner.readyState = .closed
      | .send _ => (∃ f ∈ c.stack, f.isAttempt) → c.net.readyState ≠ .opened
      | _ => True)

instance (c : Config) (e : Event) : Decidable (Careful c e) := by
  unfold Careful
  refine @instDecidableAnd _ _ inferInstance ?_
  split <;> infer_instance

theorem Tidy.send (p : Parted True s stack) (h : Tidy s stack) (running : s.phase ≠ .closed)
    (opened : s.inner.readyState = .opened)
    (careful : (∃ f ∈ stack, f.isAttempt) → s.readyState ≠ .opened) (data : JSString) :
    Tidy (s.record (.wrote s.phase s.current data)) (.passing :: stack) := by
  have quiet : ∀ f ∈ stack, f.isAttempt = false := by
    intro f hf
    refine Bool.eq_false_iff.mpr fun ha => careful ⟨f, hf, ha⟩ ?_
    rw [ReconnectingNetwork.readyState, if_neg running, opened]
  have backoff : s.phase ≠ .backoff := by
    intro phase
    rw [p.2.2 trivial phase quiet] at opened
    cases opened
  refine ⟨⟨backoff, running, h.newest.symm, h.loyal⟩, h.newest, fun n raw hs hf => ?_⟩
  rcases List.mem_cons.mp hf with hf | hf
  · cases hf
  · exact h.heard n raw hs hf

theorem Tidy.resume (o : Orderly s (f :: rest)) (h : Tidy s (f :: rest))
    (r : ReconnectingNetwork.Reply) (takes : f.takes r) :
    Tidy (s.resume f r).1 ((s.resume f r).2.toList ++ rest) := by
  have popped : Tidy s rest :=
    ⟨h.loyal, h.newest, fun n raw hs hf => h.heard n raw hs (List.mem_cons_of_mem _ hf)⟩
  cases f with
  | heard n raw hs =>
    obtain rfl : n = s.current := h.heard n raw hs List.mem_cons_self
    cases r with
    | returns => exact popped.heardRest raw hs
    | throws => exact popped
    | network => cases takes
  | factory =>
    obtain rfl := o.stacked.1 rfl
    cases r with
    | network readyState hasOnOpen =>
      refine ⟨h.loyal, rfl, fun n raw hs hf => ?_⟩
      cases List.mem_singleton.mp hf
    | returns => cases takes
    | throws => exact popped.mild (mild_failAttempt _ _ _)
  | _ => exact popped.mild (mild_resume s r takes (by rintro _ _ rfl; cases takes) rfl)

theorem Tidy.timer (h : Tidy s []) (id : Nat) :
    Tidy ({ s with timers := s.timers.filter (·.1 ≠ id) } : ReconnectingNetwork).attemptReconnect.1
      (({ s with timers := s.timers.filter (·.1 ≠ id) } :
        ReconnectingNetwork).attemptReconnect.2.toList ++ []) := by
  unfold ReconnectingNetwork.attemptReconnect
  split
  · exact ⟨h.loyal, h.newest, h.heard⟩
  · split
    · refine Tidy.mild (r := ReconnectingNetwork.giveUpRest _ _) ?_ (mild_giveUpRest _ _)
      exact ⟨h.loyal, h.newest, h.heard⟩
    · refine ⟨h.loyal, h.newest, fun n raw hs hf => ?_⟩
      cases List.mem_singleton.mp hf

theorem Tidy.step {c c' : Config} {e : Event} (o : Orderly c.net c.stack)
    (p : Parted True c.net c.stack) (h : Tidy c.net c.stack) (careful : Careful c e)
    (hstep : c.step e = some c') : Tidy c'.net c'.stack := by
  cases Config.step_does hstep with
  | settles n =>
    have kept := h.mild (s := c.net) (.silent (t := c.net.update n { c.net.networks n with
      readyState := .opened, opens := false }) rfl id rfl)
    exact kept.mild (mild_settle _)
  | opens n | closing n | closes n | queued n | lost n | advance ms | refuses data =>
    exact ⟨h.loyal, h.newest, h.heard⟩
  | message n raw _ listening =>
    refine h.hear ?_ raw
    by_contra hn
    rw [(o.lone n hn).1] at listening
    cases listening
  | delivered n index hn opened =>
    have kept := h.mild (s := c.net) (.silent (t := c.net.update n { c.net.networks n with
      queue := (c.net.networks n).queue.eraseIdx index }) rfl id rfl)
    refine kept.hear ?_ _
    by_contra hc
    rw [p.1 n hn hc] at opened
    cases opened
  | error n scope error => exact h.mild (mild_hearErrorRest _ _ _ _ _)
  | timer id empty =>
    rw [empty] at h
    exact h.timer id
  | watch empty =>
    rw [empty] at h
    exact h.mild (mild_watch _)
  | send data running opened => exact h.send p running opened careful.2 data
  | configure options =>
    exact h.mild ((mild_call { c.net with
      configured := some ((c.net.configured.map (·.merge options)).getD options) } rfl rfl).before
      rfl id rfl)
  | close =>
    obtain ⟨current, log⟩ := close_shuts c.net
    exact ⟨by rw [log]; exact h.loyal, by rw [log, current]; exact h.newest,
      by rw [current]; exact h.heard⟩
  | known => exact h
  | subscribe channel handler | unsubscribe channel handler =>
    cases channel <;> exact ⟨h.loyal, h.newest, h.heard⟩
  | reply r f rest top takes =>
    rw [top] at o h
    exact h.resume o r takes

variable {options : ReconnectOptions} {readyState : SocketReadyState} {hasOnOpen : Bool} {now : Nat}
  {es : List Event} {c : Config}

theorem parted_start (strict : Prop) (options : ReconnectOptions) (readyState : SocketReadyState)
    (hasOnOpen : Bool) (now : Nat) :
    Parted strict (start options readyState hasOnOpen now).net [] :=
  ⟨fun _ hn hc => absurd (Nat.lt_one_iff.mp hn) hc, by simp [start, ReconnectingNetwork.create],
    by rintro - ⟨⟩⟩

/-- **A replaced connection is gone.** If no network is given up before it is
closed and no candidate refuses its subscriptions, then at most one inner network
is not closed, nothing is sent in a backoff or after the close, and everything
that is written or heard goes to or comes from the current network. -/
theorem replaced_connections_are_gone
    (run : Run Config.step Careful (start options readyState hasOnOpen now) es c) :
    (∀ m < c.net.created, ∀ n < c.net.created, (c.net.networks m).readyState ≠ .closed →
      (c.net.networks n).readyState ≠ .closed → m = n) ∧ Loyal c.net.log := by
  have first : Orderly (start options readyState hasOnOpen now).net [] ∧
      Parted True (start options readyState hasOnOpen now).net [] ∧
      Tidy (start options readyState hasOnOpen now).net [] :=
    ⟨orderly_start .., parted_start .., ⟨trivial, rfl, by simp⟩⟩
  have step : ∀ c e c', Orderly c.net c.stack ∧ Parted True c.net c.stack ∧ Tidy c.net c.stack →
      Careful c e → Config.step c e = some c' →
      Orderly c'.net c'.stack ∧ Parted True c'.net c'.stack ∧ Tidy c'.net c'.stack := by
    rintro c e c' ⟨o, p, t⟩ careful hstep
    refine ⟨o.step hstep, p.step o careful.1 (fun _ error he f hf ha => ?_) hstep,
      t.step o p careful hstep⟩
    have unrefused := careful.2
    rw [he] at unrefused
    exact unrefused f hf ha
  obtain ⟨-, parted, tidy⟩ := run.invariant _ step first
  refine ⟨fun m hm n hn hm' hn' => ?_, tidy.loyal⟩
  have only : ∀ k < c.net.created, (c.net.networks k).readyState ≠ .closed → k = c.net.current :=
    fun k hk open' => not_imp_comm.mp (parted.1 k hk) open'
  rw [only m hm hm', only n hn hn']

/-! A connection that closes is replaced, and the new one is written to. -/

def reconnects : List Event :=
  [.closes 0, .watch, .timer 0, .reply (.network .opened true), .reply .returns, .reply .returns]

theorem replaced_connections_are_gone_once :
    ∃ c, exec Config.step (start .default .opened true 0) (reconnects ++ [.send (lit "x")]) = some c ∧
      Loyal c.net.log := by
  obtain ⟨c, run⟩ := Run.of_allGood Config.step Careful (start .default .opened true 0)
    (reconnects ++ [.send (lit "x")]) (by decide +kernel)
  exact ⟨c, run.exec_eq, (replaced_connections_are_gone run).2⟩

/-- A connection that was idle too long is replaced and stays open. -/
theorem idle_connection_stays_open :
    ¬ ∀ es c, exec Config.step (start { ReconnectOptions.default with idleTimeoutMs := some 1000 }
        .opened true 0) es = some c →
      (∀ m < c.net.created, ∀ n < c.net.created, (c.net.networks m).readyState ≠ .closed →
        (c.net.networks n).readyState ≠ .closed → m = n) ∧ Loyal c.net.log := by
  intro h
  have run : ((exec Config.step (start { ReconnectOptions.default with idleTimeoutMs := some 1000 }
      .opened true 0) (.advance 1001 :: reconnects.tail)).map fun c => (c.net.created,
        (c.net.networks 0).readyState, (c.net.networks 1).readyState)) =
      some (2, .opened, .opened) := by decide +kernel
  obtain ⟨c, hc, read⟩ := Option.map_eq_some_iff.mp run
  simp only [Prod.mk.injEq] at read
  obtain ⟨created, first, second⟩ := read
  have := (h _ c hc).1 0 (by omega) 1 (by omega) (by simp [first]) (by simp [second])
  cases this

end LemonModel.Reconnecting
