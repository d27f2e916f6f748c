import LemonModel.Transport.Outgoing

/-!
# What a transport says

Every data packet a transport sends is one of a message it was given: whatever holds of
the packets of those messages holds of what it has pending, of what its calls have left
to send and of what it has sent. A send is recorded by the call that starts it, and
resolved by an ack that is read.
-/

namespace LemonModel

open Text

variable {o : ReliableOptions} {c c' : Config} {e : Event}

/-- The packets a frame has left to send. -/
def Frame.left : Frame → List JSONTransportPacket
  | .attempt _ _ rest => rest
  | .resend rest => rest
  | .plain rest => rest
  | _ => []

namespace Transport

variable {t t' : Transport} {tid : JSString} {Good : JSONTransportPacket → Prop}

/-- What is pending is good, and what was sent of a message. -/
structure Speaks (Good : JSONTransportPacket → Prop) (t : Transport) : Prop where
  pending : ∀ tid p, t.pendingSend.get? tid = some p → ∀ q ∈ p.split.packets, Good q
  sent : ∀ q, .sent q ∈ t.log → q.isData → Good q

/-- It is so after a method, and what its frame has left to send is good. -/
structure SpeaksTo (Good : JSONTransportPacket → Prop) (r : Transport × Option Frame) : Prop where
  speaks : r.1.Speaks Good
  left : ∀ f ∈ r.2, ∀ q ∈ f.left, Good q

namespace Speaks

theorem done (h : t.Speaks Good) : SpeaksTo Good (t, none) := by
  refine ⟨h, ?_⟩
  rintro f ⟨⟩

theorem receives (h : t.Speaks Good) (fixed : Receives t t') : t'.Speaks Good := by
  refine ⟨fixed.pendingSend ▸ h.pending, fun q hq => ?_⟩
  have same := fixed.outgoing q.tid
  have loud : Effect.outgoing q.tid (.sent q) = true := by simp [Effect.outgoing]
  have kept : .sent q ∈ t'.log.filter (Effect.outgoing q.tid) := List.mem_filter.mpr ⟨hq, loud⟩
  rw [same, List.mem_filter] at kept
  exact h.sent q kept.1

theorem receivesTo {r : Transport × Option Frame} (h : t.Speaks Good) (fixed : ReceivesTo t r) :
    SpeaksTo Good r := by
  refine ⟨h.receives fixed.receives, fun f hf q hq => ?_⟩
  have incoming := fixed.incoming f hf
  cases f <;> first | (cases incoming; done) | cases hq

theorem record (h : t.Speaks Good) {e : Effect} (good : ∀ q, e = .sent q → q.isData → Good q) :
    (t.record e).Speaks Good := by
  refine ⟨h.pending, fun q hq => ?_⟩
  rcases List.mem_cons.mp hq with rfl | hq
  · exact good q rfl
  · exact h.sent q hq

/-- A pending send is set, or some are dropped. -/
theorem pend (h : t.Speaks Good) {map : Dict JSString PendingSend}
    (good : ∀ tid p, map.get? tid = some p → (∀ q ∈ p.split.packets, Good q) ∨
      t.pendingSend.get? tid = some p) : Speaks Good { t with pendingSend := map } := by
  refine ⟨fun tid p hp => ?_, h.sent⟩
  rcases good tid p hp with new | old
  · exact new
  · exact h.pending tid p old

theorem set (h : t.Speaks Good) {p : PendingSend} (good : ∀ q ∈ p.split.packets, Good q)
    (tid : JSString) : Speaks Good { t with pendingSend := t.pendingSend.set tid p } := by
  apply h.pend
  intro y p' hp
  rw [Dict.get?_set] at hp
  split at hp
  · cases hp
    exact .inl good
  · exact .inr hp

theorem delete (h : t.Speaks Good) (tid : JSString) :
    Speaks Good { t with pendingSend := t.pendingSend.delete tid } := by
  apply h.pend
  intro y p hp
  rw [Dict.get?_delete] at hp
  split at hp
  · cases hp
  · exact .inr hp

theorem failSend (h : t.Speaks Good) (p : PendingSend) (reason : JSString) :
    SpeaksTo Good (t.failSend tid p reason) := by
  have dropped : Speaks Good { t with
      resendTimers := t.resendTimers.delete p.resendTimer
      pendingSend := t.pendingSend.delete tid } := ⟨(h.delete tid).pending, h.sent⟩
  refine ⟨dropped.record ?_, ?_⟩
  · rintro q ⟨⟩ ⟨⟩
  · rintro f ⟨⟩ q ⟨⟩

theorem attemptEnd (h : t.Speaks Good) (p : PendingSend) :
    SpeaksTo Good (t.attemptEnd o tid p) := by
  unfold Transport.attemptEnd
  split
  · exact h.failSend p _
  · exact h.done

/-- One packet is sent, and its frame has the others. -/
theorem send_first (h : t.Speaks Good) {q : JSONTransportPacket} {rest : List JSONTransportPacket}
    (good : ∀ p ∈ q :: rest, Good p) {f : Frame} (left : f.left = rest) :
    SpeaksTo Good (t.networkSend q, some f) := by
  refine ⟨h.record ?_, ?_⟩
  · intro p hp _
    cases hp
    exact good q List.mem_cons_self
  · rintro f' ⟨⟩ p hp
    rw [left] at hp
    exact good p (List.mem_cons_of_mem _ hp)

theorem attemptRest (h : t.Speaks Good) (p : PendingSend) {rest : List JSONTransportPacket}
    (good : ∀ q ∈ rest, Good q) : SpeaksTo Good (t.attemptRest o tid p rest) := by
  cases rest with
  | nil => exact h.attemptEnd p
  | cons q rest => exact h.send_first good rfl

theorem attemptSend (h : t.Speaks Good) {p : PendingSend} (good : ∀ q ∈ p.split.packets, Good q) :
    SpeaksTo Good (t.attemptSend o tid p) := by
  unfold Transport.attemptSend
  split
  · exact h.failSend p _
  · split
    · exact h.done
    · have counted := h.set (p := { p with attempts := p.attempts + 1 }) good tid
      exact counted.attemptRest _ good

theorem plainRest (h : t.Speaks Good) {rest : List JSONTransportPacket}
    (good : ∀ q ∈ rest, Good q) : SpeaksTo Good (t.plainRest rest) := by
  cases rest with
  | nil => exact h.done
  | cons q rest => exact h.send_first good rfl

theorem resendRest (h : t.Speaks Good) {rest : List JSONTransportPacket}
    (good : ∀ q ∈ rest, Good q) : SpeaksTo Good (t.resendRest rest) := by
  cases rest with
  | nil => exact h.done
  | cons q rest => exact h.send_first good rfl

theorem send (h : t.Speaks Good) {data : JSValue} {ids : Ids}
    (good : ∀ split, splitJSON data t.options ids = some split → ∀ q ∈ split.packets, Good q) :
    SpeaksTo Good (t.send data ids) := by
  unfold Transport.send
  split
  · exact h.done
  · rename_i split hs
    have own := good split hs
    split
    · have registered : (t.register data split).Speaks Good := by
        refine ⟨(h.set (p := t.newPending split) own split.tid).pending, fun q hq => ?_⟩
        exact h.sent q (by simpa [register] using hq)
      exact registered.attemptSend own
    · exact h.plainRest own

theorem resendTick (h : t.Speaks Good) (timer : Nat) : SpeaksTo Good (t.resendTick timer) := by
  unfold Transport.resendTick
  split
  · split
    · rename_i pending hp
      exact h.attemptSend (h.pending _ pending hp)
    · exact h.done
  · exact h.done

theorem settleSend (h : t.Speaks Good) (tid : JSString) (outcome : Outcome) :
    (t.settleSend o tid outcome).Speaks Good := by
  refine ⟨h.pending, fun q hq => ?_⟩
  exact h.sent q (by simpa [Transport.settleSend] using hq)

/-- `handleAck` and the body of the loop of `detachReliable`. -/
theorem settled (h : t.Speaks Good) (p : PendingSend) (tid : JSString) (outcome : Outcome)
    {e : Effect} (quiet : ∀ q, e ≠ .sent q) : Speaks Good (({ t with
      resendTimers := t.resendTimers.delete p.resendTimer
      pendingSend := t.pendingSend.delete tid }.settleSend o tid outcome).record e) := by
  have dropped : Speaks Good { t with
      resendTimers := t.resendTimers.delete p.resendTimer
      pendingSend := t.pendingSend.delete tid } := ⟨(h.delete tid).pending, h.sent⟩
  exact (dropped.settleSend tid outcome).record fun q hq => absurd hq (quiet q)

theorem handleAck (h : t.Speaks Good) : (t.handleAck o tid).Speaks Good := by
  unfold Transport.handleAck
  split
  · exact h
  · exact h.settled _ tid .ok (by simp)

theorem handleNack (h : t.Speaks Good) (nack : JSONNackPacket) :
    SpeaksTo Good (t.handleNack nack) := by
  unfold Transport.handleNack
  split
  · exact h.done
  · rename_i pending hp
    exact h.resendRest fun q hq => h.pending _ pending hp q (nackAnswer_own pending nack q hq)

theorem receive (h : t.Speaks Good) (text : JSString) : SpeaksTo Good (t.receive text) := by
  rcases receive_sides t text with fixed | ⟨o, _, ⟨tid, _, eq⟩ | ⟨nack, _, eq⟩⟩
  · exact h.receivesTo fixed
  · rw [eq]
    exact h.handleAck.done
  · rw [eq]
    exact h.handleNack nack

theorem detach (h : t.Speaks Good) : t.detach.Speaks Good := by
  have all : ∀ (o : ReliableOptions) (es : List (JSString × PendingSend)) (t : Transport),
      t.Speaks Good → (es.foldl (detachSend o) t).Speaks Good := by
    intro o es
    induction es with
    | nil => exact fun _ h => h
    | cons e es ih => exact fun t h => ih _ (h.settled e.2 e.1 .fail (by simp))
  simp only [Transport.detach]
  split
  · rename_i o _
    have ended := all o t.pendingSend.entries t h
    exact ⟨ended.pending, ended.sent⟩
  · exact ⟨h.pending, h.sent⟩

theorem failRest (h : t.Speaks Good) (reason : JSString) : (t.failRest o tid reason).Speaks Good :=
  ((h.settleSend tid .fail).record (by simp)).record (by simp)

theorem resume (h : t.Speaks Good) {f : Frame} (left : ∀ q ∈ f.left, Good q) (ok : Bool) :
    SpeaksTo Good (t.resume ok f) := by
  cases hi : f.incoming with
  | true => exact h.receivesTo (receivesTo_resume hi ok)
  | false =>
    cases f with
    | attempt tid p rest =>
      simp only [Transport.resume]
      split
      · exact h.done
      · split
        · exact h.attemptRest p left
        · exact h.attemptEnd p
    | fail tid reason =>
      simp only [Transport.resume]
      split
      · exact h.done
      · exact (h.failRest reason).done
    | resend rest =>
      cases ok with
      | true => exact h.resendRest left
      | false => exact h.done
    | plain rest =>
      cases ok with
      | true => exact h.plainRest left
      | false => exact (h.record (by simp)).done
    | control => cases hi
    | emit => cases hi

end Speaks

end Transport

/-- The transport says what is good, and its frames have nothing else to send. -/
structure Config.Speaks (Good : JSONTransportPacket → Prop) (c : Config) : Prop where
  speaks : c.transport.Speaks Good
  left : ∀ f ∈ c.stack, ∀ q ∈ f.left, Good q

variable {Good : JSONTransportPacket → Prop}

theorem Transport.SpeaksTo.enter {r : Transport × Option Frame} {stack : List Frame}
    (h : Transport.SpeaksTo Good r) (left : ∀ f ∈ stack, ∀ q ∈ f.left, Good q) :
    (Config.enter stack r).Speaks Good := by
  refine ⟨h.speaks, fun f hf => ?_⟩
  rcases List.mem_append.mp hf with hf | hf
  · exact h.left f (Option.mem_toList.mp hf)
  · exact left f hf

/-- **What is said comes from the messages that are sent.** -/
theorem Config.Speaks.step (h : c.Speaks Good) (hstep : c.step e = some c')
    (good : ∀ data ids split, e = .send data ids → splitJSON data c.transport.options ids = some split →
      ∀ q ∈ split.packets, Good q) : c'.Speaks Good := by
  have idle : ∀ f ∈ ([] : List Frame), ∀ q ∈ f.left, Good q := by simp
  cases e with
  | receive text =>
    cases hstep
    exact (h.speaks.receive text).enter h.left
  | send data ids =>
    cases hstep
    exact (h.speaks.send fun split => good data ids split rfl).enter h.left
  | resendTick timer =>
    simp only [Config.step] at hstep
    split at hstep
    · cases hstep
      exact (h.speaks.resendTick timer).enter idle
    · cases hstep
  | fireNack tid =>
    simp only [Config.step] at hstep
    split at hstep
    · cases hstep
      exact (h.speaks.receivesTo (Transport.receivesTo_fireNack tid)).enter idle
    · cases hstep
  | cleanup =>
    cases hstep
    exact ⟨h.speaks.receives Transport.receives_cleanup, h.left⟩
  | onMessage listener =>
    cases hstep
    refine ⟨?_, h.left⟩
    simp only [Transport.onMessage]
    split
    · exact h.speaks
    · exact ⟨h.speaks.pending, h.speaks.sent⟩
  | detach =>
    cases hstep
    exact ⟨h.speaks.detach, h.left⟩
  | reply ok =>
    simp only [Config.step] at hstep
    split at hstep
    · cases hstep
    · rename_i f rest hs
      cases hstep
      have left := h.left
      rw [hs] at left
      exact (h.speaks.resume (left f List.mem_cons_self) ok).enter
        fun g hg => left g (List.mem_cons_of_mem _ hg)
  | _ =>
    cases hstep
    exact ⟨⟨h.speaks.pending, h.speaks.sent⟩, h.left⟩

/-! ## Frames stay sound -/

theorem Frame.sound_iff (f : Frame) : f.Sound ↔ ∀ q ∈ f.left, q.isData := by
  cases f <;> simp [Frame.Sound, Frame.left]

theorem step_sound (sound : c.Sound) (h : c.step e = some c') : c'.Sound := by
  have speaks : c.Speaks fun q => q.isData := by
    refine ⟨⟨fun _ p _ => packets_isData p.split, fun _ _ data => data⟩, fun f hf => ?_⟩
    exact f.sound_iff.mp (sound f hf)
  have next := speaks.step h fun _ _ split _ _ => packets_isData split
  exact fun f hf => f.sound_iff.mpr (next.left f hf)

/-! ## Where an effect comes from -/

variable {x : JSString} {g g' : Outgoing} {f : Effect}

/-- The event that an effect of sending `x` comes from. -/
def Stems (x : JSString) (c : Config) (e : Event) : Effect → Prop
  | .started _ data => ∃ ids split, e = .send data ids ∧
    splitJSON data c.transport.options ids = some split ∧ split.tid = x
  | .resolved _ => ∃ text, e = .receive text ∧ readPacket text = some (.ack x)
  | .sent q => q.isData = true ∨ ∃ reason, q = .error x reason
  | _ => True

/-- The effects new in `g'` come from the event. -/
def Adds (x : JSString) (c : Config) (e : Event) (g g' : Outgoing) : Prop :=
  ∃ es, g'.log = es ++ g.log ∧ ∀ f ∈ es, Stems x c e f

theorem Adds.nothing (same : g'.log = g.log) : Adds x c e g g' := ⟨[], same, by simp⟩

theorem Adds.trans {g₁ g₂ g₃ : Outgoing} (h₁ : Adds x c e g₁ g₂) (h₂ : Adds x c e g₂ g₃) :
    Adds x c e g₁ g₃ := by
  obtain ⟨es₁, eq₁, stems₁⟩ := h₁
  obtain ⟨es₂, eq₂, stems₂⟩ := h₂
  refine ⟨es₂ ++ es₁, by rw [eq₂, eq₁, List.append_assoc], fun f hf => ?_⟩
  rcases List.mem_append.mp hf with hf | hf
  · exact stems₂ f hf
  · exact stems₁ f hf

theorem stems_sentFor {q : JSONTransportPacket} (data : q.isData) :
    ∀ f ∈ sentFor x q, Stems x c e f := by
  intro f hf
  rw [sentFor] at hf
  split at hf
  · rw [List.mem_singleton.mp hf]
    exact .inl data
  · cases hf

theorem adds_fail (g : Outgoing) (reason : JSString) : Adds x c e g (g.fail x reason) := by
  refine ⟨[.sent (.error x reason)], rfl, fun f hf => ?_⟩
  rw [List.mem_singleton.mp hf]
  exact .inr ⟨reason, rfl⟩

theorem Attempted.adds {now : Nat} {isOpen : Bool} {p : PendingSend}
    (h : Attempted o now isOpen x p g g') : Adds x c e g g' := by
  cases h with
  | deadline _ => exact adds_fail g _
  | closed _ _ => exact .nothing rfl
  | sent rest _ _ _ => exact ⟨_, rfl, stems_sentFor rfl⟩

theorem OutMove.adds (move : OutMove o x c e g) : Adds x c e (c.outgoing x) g := by
  cases move with
  | other fades => exact .nothing rfl
  | resent p data own =>
    refine ⟨[.sent p], rfl, fun f hf => ?_⟩
    rw [List.mem_singleton.mp hf]
    exact .inl data
  | @begin data ids split g hs htid attempted =>
    have begun : Adds x c (.send data ids) (c.outgoing x) { c.outgoing x with
        pending := some (c.transport.newPending split)
        log := .started x data :: (c.outgoing x).log } := by
      refine ⟨[.started x data], rfl, fun f hf => ?_⟩
      rw [List.mem_singleton.mp hf]
      exact ⟨ids, split, rfl, hs, htid⟩
    exact begun.trans attempted.adds
  | tick empty timer hp attempted => exact attempted.adds
  | next hs data => exact ⟨_, rfl, stems_sentFor data⟩
  | @ended b p rest stack g hs ended =>
    have waiting : Adds x c (.reply b) (c.outgoing x)
        { c.outgoing x with attempts := stack.filterMap (Frame.attempt? x) } := .nothing rfl
    cases ended with
    | last _ => exact waiting.trans (adds_fail _ _)
    | more _ => exact waiting
  | failed hs fades =>
    refine ⟨[.rejected x, .error (some x) _, .settled x .fail], rfl, fun f hf => ?_⟩
    simp only [List.mem_cons, List.not_mem_nil, or_false] at hf
    rcases hf with rfl | rfl | rfl <;> trivial
  | @acked text p entry read hp fades =>
    refine ⟨[.resolved x, .settled x .ok], rfl, fun f hf => ?_⟩
    simp only [List.mem_cons, List.not_mem_nil, or_false] at hf
    rcases hf with rfl | rfl
    · exact ⟨text, rfl, read⟩
    · trivial
  | detached hp fades =>
    refine ⟨[.rejected x, .settled x .fail], rfl, fun f hf => ?_⟩
    simp only [List.mem_cons, List.not_mem_nil, or_false] at hf
    rcases hf with rfl | rfl <;> trivial

/-- **Where an effect of sending `x` comes from.** It was there, and stays, or the event
brings it. -/
theorem stems_step (hr : c.transport.reliable = some o) (sound : c.Sound)
    (hstep : c.step e = some c') (loud : f.outgoing x = true) :
    (f ∈ c.transport.log → f ∈ c'.transport.log) ∧
      (f ∈ c'.transport.log → f ∈ c.transport.log ∨ Stems x c e f) := by
  have mem : ∀ c : Config, f ∈ (c.outgoing x).log ↔ f ∈ c.transport.log := by
    intro c
    simp [Config.outgoing, Transport.outgoing, loud]
  obtain ⟨es, eq, stems⟩ := (step_outgoing (x := x) hr sound hstep).adds
  rw [← mem, ← mem, eq, List.mem_append]
  refine ⟨.inr, fun h => ?_⟩
  rcases h with new | old
  · exact .inr (stems f new)
  · exact .inl old

/-- A send that is split is recorded. -/
theorem started_send {data : JSValue} {ids : Ids} {split : JSONSplitResult}
    (hr : c.transport.reliable = some o) (cut : splitJSON data c.transport.options ids = some split)
    (hstep : c.step (.send data ids) = some c') : .started split.tid data ∈ c'.transport.log := by
  have begun := outgoing_sendReliable (c := c) (o := o) data split
  obtain ⟨es, eq, -⟩ := begun.adds (c := c) (e := .send data ids)
  have sends : c.transport.send data ids = c.transport.sendReliable o data split := by
    simp only [Transport.send, cut, hr]
  rw [← sends] at eq
  obtain rfl := Option.some.inj hstep
  have there : .started split.tid data ∈
      ((Config.enter c.stack (c.transport.send data ids)).outgoing split.tid).log := by
    rw [eq]
    simp
  exact (List.mem_filter.mp there).1

end LemonModel
