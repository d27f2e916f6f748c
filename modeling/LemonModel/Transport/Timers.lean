import LemonModel.Transport.Outgoing

/-!
# Resend timers

A resend timer is armed for a tid exactly while the tid is pending, provided no
tid is used for a second send.
-/

namespace LemonModel

open Text

def starts (tid : JSString) (log : List Effect) : Nat :=
  log.countP fun
    | .started x _ => x = tid
    | _ => false

/-- The step starts no send under a used tid. -/
def Fresh (c : Config) : Event → Prop
  | .send _ ids => starts ids.tid c.transport.log = 0
  | _ => True

instance (c : Config) (e : Event) : Decidable (Fresh c e) := by
  unfold Fresh
  split <;> infer_instance

namespace Transport

/-- `p` is the send of `tid`, pending or not, and no timer of another tid is
its. -/
structure Owns (t : Transport) (tid : JSString) (p : PendingSend) : Prop where
  used : p.resendTimer < t.nextTimer
  started : 0 < starts tid t.log
  pending : ∀ q, t.pendingSend.get? tid = some q → q.resendTimer = p.resendTimer
  timer : ∀ y, t.resendTimers.get? p.resendTimer = some y → y = tid

end Transport

def Frame.Owned (t : Transport) : Frame → Prop
  | .attempt tid p _ => t.Owns tid p
  | _ => True

/-- The armed timers are those of the pending sends. -/
structure Armed (t : Transport) (frames : List Frame) : Prop where
  armed : ∀ timer tid, t.resendTimers.get? timer = some tid ↔
    ∃ p, t.pendingSend.get? tid = some p ∧ p.resendTimer = timer
  used : ∀ timer tid, t.resendTimers.get? timer = some tid → timer < t.nextTimer
  started : ∀ tid p, t.pendingSend.get? tid = some p → 0 < starts tid t.log
  owned : ∀ f ∈ frames, f.Owned t

variable {o : ReliableOptions} {x tid : JSString} {c c' : Config} {e : Event}

theorem starts_cons (e : Effect) (log : List Effect) :
    starts x (e :: log) = starts x log +
      match e with
      | .started y _ => if y = x then 1 else 0
      | _ => 0 := by
  cases e with
  | started y data =>
    rw [starts, List.countP_cons]
    congr 1
    by_cases hy : y = x <;> simp [hy]
  | _ => rw [starts, List.countP_cons_of_neg (by simp)]; rfl

/-- Only the sends of `x` count. -/
theorem starts_outgoing (log : List Effect) :
    starts x (log.filter (Effect.outgoing x)) = starts x log := by
  rw [starts, starts, List.countP_filter]
  congr 1
  funext e
  cases e with
  | started y data => by_cases hy : y = x <;> simp [Effect.outgoing, hy]
  | _ => rfl

namespace Transport

variable {t : Transport} {p : PendingSend} {frames : List Frame}

/-- `t'` has the sends and the timers of `t`. -/
structure SameSends (t t' : Transport) : Prop where
  pendingSend : t'.pendingSend = t.pendingSend
  resendTimers : t'.resendTimers = t.resendTimers
  nextTimer : t'.nextTimer = t.nextTimer
  starts : ∀ x, starts x t'.log = starts x t.log

theorem SameSends.of_receives {t' : Transport} (h : Receives t t') : SameSends t t' :=
  ⟨h.pendingSend, h.resendTimers, h.nextTimer, fun x => by
    rw [← starts_outgoing, h.outgoing, starts_outgoing]⟩

/-- Ownership survives where sends and timers only go away. -/
theorem Owns.shrink {t' : Transport} (next : t.nextTimer ≤ t'.nextTimer)
    (log : starts tid t.log ≤ starts tid t'.log)
    (pending : ∀ q, t'.pendingSend.get? tid = some q → t.pendingSend.get? tid = some q)
    (timers : ∀ y, t'.resendTimers.get? p.resendTimer = some y →
      t.resendTimers.get? p.resendTimer = some y) (h : t.Owns tid p) : t'.Owns tid p where
  used := lt_of_lt_of_le h.used next
  started := lt_of_lt_of_le h.started log
  pending q hq := h.pending q (pending q hq)
  timer y hy := h.timer y (timers y hy)

theorem Owns.keep {t' : Transport} (same : SameSends t t') (h : t.Owns tid p) : t'.Owns tid p :=
  h.shrink (le_of_eq same.nextTimer.symm) (le_of_eq (same.starts tid).symm)
    (fun _ hq => same.pendingSend ▸ hq) (fun _ hy => same.resendTimers ▸ hy)

theorem owned_of {t' : Transport} {f : Frame}
    (h : ∀ tid p, t.Owns tid p → t'.Owns tid p) (owned : f.Owned t) : f.Owned t' := by
  cases f with
  | attempt tid p rest => exact h tid p owned
  | _ => trivial

/-- The state and the frame a method leaves, over the calls below. -/
def ArmedTo (r : Transport × Option Frame) (frames : List Frame) : Prop :=
  Armed r.1 (r.2.toList ++ frames)

end Transport

open Transport

namespace Armed

variable {t : Transport} {p : PendingSend} {frames : List Frame}

theorem keep {t' : Transport} (same : SameSends t t') (h : Armed t frames) : Armed t' frames where
  armed := by
    rw [same.pendingSend, same.resendTimers]
    exact h.armed
  used := by
    rw [same.resendTimers, same.nextTimer]
    exact h.used
  started y q hq := by
    rw [same.starts]
    exact h.started y q (same.pendingSend ▸ hq)
  owned f hf := owned_of (fun _ _ => Owns.keep same) (h.owned f hf)

theorem push {f : Frame} (h : Armed t frames) (hf : f.Owned t) : ArmedTo (t, some f) frames := by
  refine ⟨h.armed, h.used, h.started, fun g hg => ?_⟩
  rcases List.mem_cons.mp hg with rfl | hg
  · exact hf
  · exact h.owned g hg

theorem owns (h : Armed t frames) (hp : t.pendingSend.get? tid = some p) : t.Owns tid p := by
  have armed : t.resendTimers.get? p.resendTimer = some tid := (h.armed _ _).mpr ⟨p, hp, rfl⟩
  refine ⟨h.used _ _ armed, h.started _ _ hp, fun q hq => ?_, fun y hy => ?_⟩
  · rw [Option.some.inj (hp.symm.trans hq)]
  · exact Option.some.inj (hy.symm.trans armed)

/-- A send is dropped, its timer with it. -/
theorem drop (h : Armed t frames) (own : t.Owns tid p) :
    Armed { t with
      resendTimers := t.resendTimers.delete p.resendTimer
      pendingSend := t.pendingSend.delete tid } frames where
  armed timer y := by
    simp only [Dict.get?_delete]
    constructor
    · intro hy
      split at hy
      · cases hy
      · rename_i other
        obtain ⟨q, hq, rfl⟩ := (h.armed timer y).mp hy
        have distinct : y ≠ tid := by
          rintro rfl
          exact other (own.pending q hq)
        exact ⟨q, by rw [if_neg distinct, hq], rfl⟩
    · rintro ⟨q, hq, rfl⟩
      split at hq
      · cases hq
      · rename_i distinct
        have armed := (h.armed q.resendTimer y).mpr ⟨q, hq, rfl⟩
        have other : q.resendTimer ≠ p.resendTimer := by
          intro eq
          exact distinct (own.timer y (eq ▸ armed))
        rw [if_neg other, armed]
  used timer y hy := by
    rw [Dict.get?_delete] at hy
    split at hy
    · cases hy
    · exact h.used timer y hy
  started y q hq := by
    rw [Dict.get?_delete] at hq
    split at hq
    · cases hq
    · exact h.started y q hq
  owned f hf := by
    refine owned_of (t := t)
      (fun y q own => own.shrink (t := t) le_rfl le_rfl (fun r hr => ?_) fun z hz => ?_)
      (h.owned f hf)
    · rw [Dict.get?_delete] at hr
      split at hr
      · cases hr
      · exact hr
    · rw [Dict.get?_delete] at hz
      split at hz
      · cases hz
      · exact hz

/-- The attempts of a pending send are counted. -/
theorem count (h : Armed t frames) (hp : t.pendingSend.get? tid = some p) (n : Nat) :
    Armed { t with pendingSend := t.pendingSend.set tid { p with attempts := n } } frames := by
  have pending : ∀ y q, (t.pendingSend.set tid { p with attempts := n }).get? y = some q →
      ∃ r, t.pendingSend.get? y = some r ∧ r.resendTimer = q.resendTimer := by
    intro y q hq
    rw [Dict.get?_set] at hq
    split at hq
    · rename_i same
      obtain rfl : { p with attempts := n } = q := Option.some.inj hq
      exact ⟨p, same ▸ hp, rfl⟩
    · exact ⟨q, hq, rfl⟩
  refine ⟨fun timer y => ⟨fun hy => ?_, ?_⟩, h.used, fun y q hq => ?_, fun f hf => ?_⟩
  · obtain ⟨q, hq, hqt⟩ := (h.armed timer y).mp hy
    rw [Dict.get?_set]
    split
    · rename_i same
      rw [same, hp] at hq
      obtain rfl : p = q := Option.some.inj hq
      exact ⟨_, rfl, hqt⟩
    · exact ⟨q, hq, hqt⟩
  · rintro ⟨q, hq, rfl⟩
    obtain ⟨r, hr, eq⟩ := pending y q hq
    exact (h.armed q.resendTimer y).mpr ⟨r, hr, eq⟩
  · obtain ⟨r, hr, _⟩ := pending y q hq
    exact h.started y r hr
  · refine owned_of (t := t) (fun y q own => ⟨own.used, own.started, fun q' hq' => ?_, own.timer⟩)
      (h.owned f hf)
    obtain ⟨r, hr, eq⟩ := pending y q' hq'
    exact eq.symm.trans (own.pending r hr)

theorem register (h : Armed t frames) (data : JSValue) (split : JSONSplitResult)
    (fresh : starts split.tid t.log = 0) : Armed (t.register data split) frames := by
  have idle : t.pendingSend.get? split.tid = none := by
    cases hp : t.pendingSend.get? split.tid with
    | none => rfl
    | some p =>
      have := h.started _ p hp
      omega
  have unused : t.resendTimers.get? t.nextTimer = none := by
    cases hy : t.resendTimers.get? t.nextTimer with
    | none => rfl
    | some y => exact absurd (h.used _ y hy) (lt_irrefl _)
  refine ⟨fun timer y => ?_, fun timer y hy => ?_, fun y q hq => ?_, fun f hf => ?_⟩
  · simp only [Transport.register, Dict.get?_set]
    constructor
    · intro hy
      split at hy
      · rename_i same
        obtain rfl : split.tid = y := Option.some.inj hy
        exact ⟨t.newPending split, if_pos rfl, same.symm⟩
      · obtain ⟨q, hq, eq⟩ := (h.armed timer y).mp hy
        have distinct : y ≠ split.tid := by
          rintro rfl
          cases idle.symm.trans hq
        exact ⟨q, by rw [if_neg distinct, hq], eq⟩
    · rintro ⟨q, hq, rfl⟩
      split at hq
      · rename_i same
        obtain rfl : t.newPending split = q := Option.some.inj hq
        simp [newPending, same]
      · have armed := (h.armed q.resendTimer y).mpr ⟨q, hq, rfl⟩
        have other : q.resendTimer ≠ t.nextTimer := by
          intro eq
          rw [eq, unused] at armed
          cases armed
        rw [if_neg other, armed]
  · simp only [Transport.register, Dict.get?_set] at hy ⊢
    split at hy
    · omega
    · exact Nat.lt_succ_of_lt (h.used timer y hy)
  · simp only [Transport.register, Dict.get?_set, starts_cons] at hq ⊢
    split at hq
    · rename_i same
      simp [same]
    · exact Nat.lt_of_lt_of_le (h.started y q hq) (Nat.le_add_right _ _)
  · refine owned_of (t := t) (fun y q own => ⟨Nat.lt_succ_of_lt own.used, ?_, fun q' hq' => ?_,
      fun z hz => ?_⟩) (h.owned f hf)
    · rw [Transport.register, starts_cons]
      exact Nat.lt_of_lt_of_le own.started (Nat.le_add_right _ _)
    · have distinct : y ≠ split.tid := by
        rintro rfl
        have := own.started
        omega
      rw [Transport.register, Dict.get?_set_ne _ _ distinct] at hq'
      exact own.pending q' hq'
    · rw [Transport.register, Dict.get?_set_ne _ _ (Nat.ne_of_lt own.used)] at hz
      exact own.timer z hz

end Armed

/-! ## The methods -/

namespace Transport

variable {t : Transport} {p : PendingSend} {frames : List Frame}

theorem sameSends_record {e : Effect} (h : ∀ x log, starts x (e :: log) = starts x log) :
    SameSends t (t.record e) :=
  ⟨rfl, rfl, rfl, fun x => h x t.log⟩

theorem sameSends_settleSend (o : ReliableOptions) (tid : JSString) (outcome : Outcome) :
    SameSends t (t.settleSend o tid outcome) :=
  ⟨rfl, rfl, rfl, fun _ => rfl⟩

theorem SameSends.trans {a b c : Transport} (h₁ : SameSends a b) (h₂ : SameSends b c) :
    SameSends a c :=
  ⟨h₂.pendingSend.trans h₁.pendingSend, h₂.resendTimers.trans h₁.resendTimers,
    h₂.nextTimer.trans h₁.nextTimer, fun x => (h₂.starts x).trans (h₁.starts x)⟩

theorem sameSends_failRest (reason : JSString) : SameSends t (t.failRest o tid reason) :=
  ((sameSends_settleSend o tid .fail).trans (sameSends_record fun _ _ => rfl)).trans
    (sameSends_record fun _ _ => rfl)

theorem armedTo_sent {f : Frame} (h : Armed t frames) (q : JSONTransportPacket)
    (hf : f.Owned t) : ArmedTo (t.networkSend q, some f) frames := by
  have same : SameSends t (t.networkSend q) := sameSends_record fun _ _ => rfl
  exact (h.keep same).push (owned_of (fun _ _ => Owns.keep same) hf)

theorem armedTo_failSend (h : Armed t frames) (own : t.Owns tid p) (reason : JSString) :
    ArmedTo (t.failSend tid p reason) frames :=
  armedTo_sent (h.drop own) _ trivial

theorem armedTo_attemptRest (h : Armed t frames) (own : t.Owns tid p)
    (rest : List JSONTransportPacket) : ArmedTo (t.attemptRest o tid p rest) frames := by
  cases rest with
  | nil =>
    simp only [attemptRest, attemptEnd]
    split
    · exact armedTo_failSend h own _
    · exact h
  | cons q rest => exact armedTo_sent h q own

theorem armedTo_attemptSend (h : Armed t frames) (hp : t.pendingSend.get? tid = some p) :
    ArmedTo (t.attemptSend o tid p) frames := by
  unfold attemptSend
  split
  · exact armedTo_failSend h (h.owns hp) _
  · split
    · exact h
    · have counted := h.count hp (p.attempts + 1)
      exact armedTo_attemptRest counted (counted.owns (Dict.get?_set_self _ _ _)) _

theorem armedTo_plainRest (h : Armed t frames) (rest : List JSONTransportPacket) :
    ArmedTo (t.plainRest rest) frames := by
  cases rest with
  | nil => exact h
  | cons q rest => exact armedTo_sent h q trivial

theorem armedTo_resendRest (h : Armed t frames) (rest : List JSONTransportPacket) :
    ArmedTo (t.resendRest rest) frames := by
  cases rest with
  | nil => exact h
  | cons q rest => exact armedTo_sent h q trivial

theorem armedTo_send (h : Armed t frames) (data : JSValue) (ids : Ids)
    (fresh : starts ids.tid t.log = 0) : ArmedTo (t.send data ids) frames := by
  unfold send
  split
  · exact h
  · rename_i split hs
    rw [← splitJSON_tid hs] at fresh
    cases t.reliable with
    | none => exact armedTo_plainRest h _
    | some o =>
      exact armedTo_attemptSend (h.register data split fresh) (Dict.get?_set_self _ _ _)

theorem armedTo_resendTick (h : Armed t frames) (timer : Nat) :
    ArmedTo (t.resendTick timer) frames := by
  unfold resendTick
  split
  · split
    · rename_i hp
      exact armedTo_attemptSend h hp
    · exact h
  · exact h

theorem armed_handleAck (h : Armed t frames) : Armed (t.handleAck o tid) frames := by
  unfold handleAck
  split
  · exact h
  · rename_i p hp
    exact ((h.drop (h.owns hp)).keep (sameSends_settleSend o tid .ok)).keep
      (sameSends_record fun _ _ => rfl)

theorem armedTo_receives {r : Transport × Option Frame} (h : Armed t frames)
    (hr : ReceivesTo t r) : ArmedTo r frames := by
  obtain ⟨t', f⟩ := r
  have kept := h.keep (.of_receives hr.receives)
  cases f with
  | none => exact kept
  | some f =>
    have incoming := hr.incoming f rfl
    refine kept.push ?_
    cases f <;> trivial

theorem armedTo_receive (h : Armed t frames) (text : JSString) :
    ArmedTo (t.receive text) frames := by
  rcases receive_sides t text with hr | ⟨o, _, ⟨tid, _, eq⟩ | ⟨nack, _, eq⟩⟩
  · exact armedTo_receives h hr
  · rw [eq]
    exact armed_handleAck h
  · rw [eq]
    unfold handleNack
    split
    · exact h
    · exact armedTo_resendRest h _

theorem armedTo_resume {f : Frame} (h : Armed t (f :: frames)) (ok : Bool) :
    ArmedTo (t.resume ok f) frames := by
  have rest : Armed t frames :=
    ⟨h.armed, h.used, h.started, fun g hg => h.owned g (List.mem_cons_of_mem _ hg)⟩
  have own := h.owned f List.mem_cons_self
  cases hi : f.incoming with
  | true => exact armedTo_receives rest (receivesTo_resume hi ok)
  | false =>
    cases f with
    | attempt tid p packets =>
      simp only [resume]
      split
      · exact rest
      · split
        · exact armedTo_attemptRest rest own packets
        · exact armedTo_attemptRest rest own []
    | fail tid reason =>
      simp only [resume]
      split
      · exact rest
      · exact rest.keep (sameSends_failRest reason)
    | resend packets =>
      cases ok with
      | true => exact armedTo_resendRest rest packets
      | false => exact rest
    | plain packets =>
      cases ok with
      | true => exact armedTo_plainRest rest packets
      | false => exact rest.keep (sameSends_record fun _ _ => rfl)
    | control => cases hi
    | emit => cases hi

theorem owns_detachSend {e : JSString × PendingSend} (own : t.Owns tid p) :
    (detachSend o t e).Owns tid p := by
  have dropped : { t with
      resendTimers := t.resendTimers.delete e.2.resendTimer
      pendingSend := t.pendingSend.delete e.1 }.Owns tid p := by
    refine own.shrink (t := t) le_rfl le_rfl (fun q hq => ?_) fun y hy => ?_
    · rw [Dict.get?_delete] at hq
      split at hq
      · cases hq
      · exact hq
    · rw [Dict.get?_delete] at hy
      split at hy
      · cases hy
      · exact hy
  exact (dropped.keep (sameSends_settleSend o e.1 .fail)).keep (sameSends_record fun _ _ => rfl)

theorem armed_detachSend {es : List (JSString × PendingSend)} (h : Armed t frames)
    (own : ∀ e ∈ es, t.Owns e.1 e.2) : Armed (es.foldl (detachSend o) t) frames := by
  induction es generalizing t with
  | nil => exact h
  | cons e es ih =>
    have first : Armed (detachSend o t e) frames :=
      ((h.drop (own e List.mem_cons_self)).keep (sameSends_settleSend o e.1 .fail)).keep
        (sameSends_record fun _ _ => rfl)
    exact ih first fun e' he' => owns_detachSend (own e' (List.mem_cons_of_mem _ he'))

theorem armed_detach (h : Armed t frames) : Armed t.detach frames := by
  unfold detach
  cases t.reliable with
  | none => exact h.keep (t := t) ⟨rfl, rfl, rfl, fun _ => rfl⟩
  | some o =>
    have dropped : Armed (t.pendingSend.entries.foldl (detachSend o) t) frames :=
      armed_detachSend h fun e he => h.owns (Dict.get?_eq_some.mpr he)
    exact dropped.keep (t := t.pendingSend.entries.foldl (detachSend o) t)
      ⟨rfl, rfl, rfl, fun _ => rfl⟩

end Transport

/-- **The step lemma.** -/
theorem step_armed (fresh : Fresh c e) (h : Armed c.transport c.stack) (hstep : c.step e = some c') :
    Armed c'.transport c'.stack := by
  cases e with
  | receive text =>
    cases hstep
    exact armedTo_receive h text
  | send data ids =>
    cases hstep
    exact armedTo_send h data ids fresh
  | resendTick timer =>
    simp only [Config.step] at hstep
    split at hstep
    · rename_i idle
      cases hstep
      rw [List.isEmpty_iff.mp idle.1] at h
      exact armedTo_resendTick h timer
    · cases hstep
  | fireNack tid =>
    simp only [Config.step] at hstep
    split at hstep
    · rename_i idle
      cases hstep
      rw [List.isEmpty_iff.mp idle.1] at h
      exact armedTo_receives h (receivesTo_fireNack tid)
    · cases hstep
  | cleanup =>
    cases hstep
    exact h.keep (.of_receives receives_cleanup)
  | onMessage listener =>
    cases hstep
    refine h.keep ⟨?_, ?_, ?_, fun x => ?_⟩ <;> simp only [onMessage] <;> split <;> rfl
  | detach =>
    cases hstep
    exact armed_detach h
  | reply ok =>
    simp only [Config.step] at hstep
    split at hstep
    · cases hstep
    · rename_i f rest hs
      cases hstep
      rw [hs] at h
      exact armedTo_resume h ok
  | _ =>
    cases hstep
    exact h.keep (t := c.transport) ⟨rfl, rfl, rfl, fun _ => rfl⟩

/-- A timer is armed for every pending send, and for no other tid. -/
theorem Armed.timer_iff {t : Transport} {frames : List Frame} (h : Armed t frames)
    (tid : JSString) :
    (∃ timer, t.resendTimers.get? timer = some tid) ↔ t.pendingSend.has tid = true := by
  rw [Dict.has_iff]
  constructor
  · rintro ⟨timer, ht⟩
    obtain ⟨p, hp, _⟩ := (h.armed timer tid).mp ht
    exact ⟨p, hp⟩
  · rintro ⟨p, hp⟩
    exact ⟨p.resendTimer, (h.armed _ _).mpr ⟨p, hp, rfl⟩⟩

end LemonModel
