import LemonModel.Transport.Once

/-!
# What comes before an ack

A reliable receiver acks a tid after a loop in which every listener was called with the
document it had put together and returned. `Hears` is what every event leaves of a tid's
partial state, its loops, its entry in the settled memory and its acks.
-/

namespace LemonModel

open Text

/-! ## Emissions -/

/-- `data` was put together for `listeners`; since then `asked` were called with it and
`told` have returned. -/
def Emitting (tid : JSString) (data : Json) (listeners asked told : List Nat)
    (log : List Effect) : Prop :=
  ∃ newer older, log = newer ++ .assembled tid data listeners :: older ∧
    (∀ l ∈ asked, .called tid data l ∈ newer) ∧ ∀ l ∈ told, .returned tid data l ∈ newer

/-- `data` was put together, and every listener there was has been called with it and has
returned. -/
def Emitted (tid : JSString) (data : Json) (log : List Effect) : Prop :=
  ∃ listeners, Emitting tid data listeners listeners listeners log

/-- A document that is meant was emitted. -/
def Told (tid : JSString) (Meant : Json → Prop) (log : List Effect) : Prop :=
  ∃ data, Meant data ∧ Emitted tid data log

/-- It was before each ack. -/
def Acks (tid : JSString) (Meant : Json → Prop) : List Effect → Prop
  | [] => True
  | e :: log => (e = .answered (.ack tid) → Told tid Meant log) ∧ Acks tid Meant log

variable {o : ReliableOptions} {x tid : JSString} {data : Json} {listeners asked told rest : List Nat}
  {log older newer : List Effect} {Meant Meant' : Json → Prop} {Holds Holds' : JSONReceiveState → Prop}
  {c c' : Config} {e : Event} {m : Local} {v w : View} {loops : List (Json × Nat × List Nat)}

theorem Emitting.grow (h : Emitting tid data listeners asked told log) (es : List Effect) :
    Emitting tid data listeners asked told (es ++ log) := by
  obtain ⟨newer, older, rfl, called, returned⟩ := h
  refine ⟨es ++ newer, older, by rw [List.append_assoc], fun l hl => ?_, fun l hl => ?_⟩
  · exact List.mem_append_right es (called l hl)
  · exact List.mem_append_right es (returned l hl)

theorem Emitting.call (h : Emitting tid data listeners asked told log) (l : Nat) :
    Emitting tid data listeners (asked ++ [l]) told (.called tid data l :: log) := by
  obtain ⟨newer, older, rfl, called, returned⟩ := h
  refine ⟨.called tid data l :: newer, older, rfl, fun k hk => ?_, fun k hk => ?_⟩
  · rcases List.mem_append.mp hk with hk | hk
    · exact List.mem_cons_of_mem _ (called k hk)
    · rw [List.mem_singleton.mp hk]
      exact List.mem_cons_self
  · exact List.mem_cons_of_mem _ (returned k hk)

theorem Emitting.return (h : Emitting tid data listeners asked told log) (l : Nat) :
    Emitting tid data listeners asked (told ++ [l]) (.returned tid data l :: log) := by
  obtain ⟨newer, older, rfl, called, returned⟩ := h
  refine ⟨.returned tid data l :: newer, older, rfl, fun k hk => ?_, fun k hk => ?_⟩
  · exact List.mem_cons_of_mem _ (called k hk)
  · rcases List.mem_append.mp hk with hk | hk
    · exact List.mem_cons_of_mem _ (returned k hk)
    · rw [List.mem_singleton.mp hk]
      exact List.mem_cons_self

theorem Emitted.grow (h : Emitted tid data log) (es : List Effect) :
    Emitted tid data (es ++ log) := by
  obtain ⟨listeners, h⟩ := h
  exact ⟨listeners, h.grow es⟩

theorem Told.grow (h : Told tid Meant log) (es : List Effect) : Told tid Meant (es ++ log) := by
  obtain ⟨data, meant, h⟩ := h
  exact ⟨data, meant, h.grow es⟩

theorem Acks.grow (h : Acks tid Meant log) {es : List Effect}
    (quiet : .answered (.ack tid) ∉ es) : Acks tid Meant (es ++ log) := by
  induction es with
  | nil => exact h
  | cons e es ih =>
    rw [List.mem_cons, not_or] at quiet
    exact ⟨fun he => absurd he.symm quiet.1, ih quiet.2⟩

theorem Acks.before (h : Acks tid Meant (newer ++ .answered (.ack tid) :: older)) :
    Told tid Meant older := by
  induction newer with
  | nil => exact h.1 rfl
  | cons e newer ih => exact ih h.2

theorem Acks.imp (means : ∀ data, Meant data → Meant' data) (h : Acks tid Meant log) :
    Acks tid Meant' log := by
  induction log with
  | nil => trivial
  | cons e log ih =>
    refine ⟨fun he => ?_, ih h.2⟩
    obtain ⟨data, meant, emitted⟩ := h.1 he
    exact ⟨data, means data meant, emitted⟩

/-- What the effects about a tid say is so in the whole log. -/
theorem Emitted.of_about (h : Emitted x data (log.filter (Effect.about x))) :
    Emitted x data log := by
  obtain ⟨listeners, newer, older, eq, called, returned⟩ := h
  obtain ⟨l₁, l₂, rfl, rfl, second⟩ := List.filter_eq_append_iff.mp eq
  obtain ⟨l₃, l₄, rfl, -, -, rfl⟩ := List.filter_eq_cons_iff.mp second
  refine ⟨listeners, l₁ ++ l₃, l₄, by simp, fun l hl => ?_, fun l hl => ?_⟩
  · exact List.mem_append_left l₃ (List.mem_filter.mp (called l hl)).1
  · exact List.mem_append_left l₃ (List.mem_filter.mp (returned l hl)).1

/-! ## What the receiver knows of a tid -/

/-- Partial states hold what they should, and what is being emitted, remembered or acked
is meant. -/
structure Hears (tid : JSString) (Meant : Json → Prop) (Holds : JSONReceiveState → Prop)
    (m : Local) : Prop where
  state : ∀ s, m.view.state = some s → Holds s
  loops : ∀ loop ∈ m.loops, Meant loop.1 ∧ ∃ told, Emitting tid loop.1
    (told ++ loop.2.1 :: loop.2.2) (told ++ [loop.2.1]) told m.view.log
  memory : ∀ entry, m.view.memory = some entry → entry.outcome = .ok → Told tid Meant m.view.log
  acks : Acks tid Meant m.view.log
  control : ∀ q, .answered q ∈ m.view.log → q.isData = false

theorem Hears.imp (means : ∀ data, Meant data → Meant' data) (holds : ∀ s, Holds s → Holds' s)
    (h : Hears x Meant Holds m) : Hears x Meant' Holds' m := by
  refine ⟨fun s hs => holds s (h.state s hs), fun loop hl => ?_, fun entry he ok => ?_,
    h.acks.imp means, h.control⟩
  · obtain ⟨meant, emitting⟩ := h.loops loop hl
    exact ⟨means _ meant, emitting⟩
  · obtain ⟨data, meant, emitted⟩ := h.memory entry he ok
    exact ⟨data, means data meant, emitted⟩

/-- From `v` to `w` nothing is buffered, remembered as received or acked. -/
structure Passes (v w : View) : Prop where
  state : ∀ s, w.state = some s → v.state = some s
  memory : ∀ entry, w.memory = some entry → entry.outcome = .ok → v.memory = some entry
  log : ∃ es, w.log = es ++ v.log ∧ ∀ q, .answered q ∈ es → ∃ nack, q = .nack nack

namespace Passes

theorem refl (v : View) : Passes v v :=
  ⟨fun _ h => h, fun _ h _ => h, [], rfl, by simp⟩

theorem trans {u : View} (h₁ : Passes u v) (h₂ : Passes v w) : Passes u w := by
  obtain ⟨es₁, eq₁, quiet₁⟩ := h₁.log
  obtain ⟨es₂, eq₂, quiet₂⟩ := h₂.log
  refine ⟨fun s hs => h₁.state s (h₂.state s hs), fun entry he ok => ?_, es₂ ++ es₁,
    by rw [eq₂, eq₁, List.append_assoc], fun q hq => ?_⟩
  · exact h₁.memory entry (h₂.memory entry he ok) ok
  · rcases List.mem_append.mp hq with hq | hq
    · exact quiet₂ q hq
    · exact quiet₁ q hq

theorem record (v : View) {e : Effect} (quiet : ∀ q, e ≠ .answered q) : Passes v (v.record e) := by
  refine ⟨fun _ h => h, fun _ h _ => h, [e], rfl, fun q hq => ?_⟩
  exact absurd (List.mem_singleton.mp hq).symm (quiet q)

theorem of_lapse (h : View.Lapse x v w) : Passes v w := by
  cases h with
  | keep => exact refl v
  | lose _ => exact ⟨fun _ h => h, by simp [View.lose], [.forgot x], rfl, by simp⟩

/-- A tid is forgotten about, and remembered as failed. -/
theorem failed (v : View) (expiresAt : Nat) (nack : Bool) :
    Passes v ⟨none, some ⟨.fail, expiresAt⟩, nack, v.log⟩ := by
  refine ⟨by simp, ?_, [], rfl, by simp⟩
  rintro entry ⟨⟩ ⟨⟩

theorem of_cleaned {now : Nat} {b : Bool} (h : Cleaned o now x v b w) : Passes v w := by
  cases h with
  | live h => exact of_lapse h
  | expired _ h₁ h₂ h₃ =>
    exact (of_lapse h₁).trans ((failed _ _ _).trans ((of_lapse h₂).trans
      ((record _ (by simp)).trans (of_lapse h₃))))

end Passes

theorem Hears.passes (h : Hears x Meant Holds ⟨v, loops⟩) (passes : Passes v w) :
    Hears x Meant Holds ⟨w, loops⟩ := by
  obtain ⟨es, eq, quiet⟩ := passes.log
  refine ⟨fun s hs => h.state s (passes.state s hs), fun loop hl => ?_, fun entry he ok => ?_, ?_,
    fun q hq => ?_⟩
  · obtain ⟨meant, told, emitting⟩ := h.loops loop hl
    refine ⟨meant, told, ?_⟩
    simp only [eq]
    exact emitting.grow es
  · simp only [eq]
    exact (h.memory entry (passes.memory entry he ok) ok).grow es
  · simp only [eq]
    refine h.acks.grow fun acked => ?_
    obtain ⟨nack, same⟩ := quiet _ acked
    cases same
  · simp only [eq] at hq
    rcases List.mem_append.mp hq with new | old
    · obtain ⟨nack, rfl⟩ := quiet q new
      rfl
    · exact h.control q old

/-- An ack after an emission. -/
theorem Hears.ack (h : Hears x Meant Holds ⟨v, loops⟩) (emitted : Told x Meant v.log) :
    Hears x Meant Holds ⟨v.record (.answered (.ack x)), loops⟩ := by
  refine ⟨h.state, fun loop hl => ?_, fun entry he ok => ?_, ⟨fun _ => emitted, h.acks⟩,
    fun q hq => ?_⟩
  · obtain ⟨meant, told, emitting⟩ := h.loops loop hl
    exact ⟨meant, told, emitting.grow [_]⟩
  · exact (h.memory entry he ok).grow [_]
  · rcases List.mem_cons.mp hq with new | old
    · cases new
      rfl
    · exact h.control q old

/-- The listener loop goes on, or ends with an ack. -/
theorem Hears.looped {now : Nat} (h : Hears x Meant Holds ⟨v, loops⟩) (meant : Meant data)
    (emitting : Emitting x data (told ++ rest) told told v.log)
    (looped : Looped o now x data v loops rest m) : Hears x Meant Holds m := by
  cases looped with
  | call listener rest =>
    have called := h.passes (Passes.record v (e := .called x data listener) (by simp))
    refine ⟨called.state, fun loop hl => ?_, called.memory, called.acks, called.control⟩
    rcases List.mem_cons.mp hl with rfl | hl
    · exact ⟨meant, told, emitting.call listener⟩
    · exact called.loops loop hl
  | @finish w lapse =>
    rw [List.append_nil] at emitting
    have emitted : Told x Meant v.log := ⟨data, meant, told, emitting⟩
    have settled : Hears x Meant Holds
        ⟨{ v with memory := some ⟨.ok, now + o.settledTtlMs⟩, nack := false }, loops⟩ :=
      ⟨h.state, h.loops, fun _ _ _ => emitted, h.acks, h.control⟩
    have passes := Passes.of_lapse lapse
    obtain ⟨es, eq, -⟩ := passes.log
    have kept : Told x Meant w.log := by
      rw [eq]
      exact emitted.grow es
    exact (settled.passes passes).ack kept

/-- A packet keeps what a partial state of `tid` holds, and what it puts together is meant. -/
def Honest (tid : JSString) (Meant : Json → Prop) (Holds : JSONReceiveState → Prop)
    (p : JSONTransportPacket) : Prop :=
  ∀ (v : View) (now : Nat) (s : JSONReceiveState) (reports : List Report) (out : Option Json),
    (∀ s, v.state = some s → Holds s) → absorb true now (v.opened tid now) p = (s, reports, out) →
    Holds s ∧ ∀ data, out = some data → Meant data

/-- The state after `absorb`. -/
theorem Hears.absorbed {s : JSONReceiveState} (h : Hears x Meant Holds ⟨v, loops⟩) (holds : Holds s)
    (reports : List Report) : Hears x Meant Holds ⟨v.absorbed x s reports, loops⟩ := by
  have complained : Passes v { v.absorbed x s reports with state := v.state } := by
    refine ⟨fun _ h => h, fun _ h _ => h, (reports.map (.error (some x))).reverse, rfl, ?_⟩
    simp
  have kept := h.passes complained
  refine ⟨?_, kept.loops, kept.memory, kept.acks, kept.control⟩
  rintro s' ⟨⟩
  exact holds

theorem Hears.tail {loop : Json × Nat × List Nat} (h : Hears x Meant Holds ⟨v, loop :: loops⟩) :
    Hears x Meant Holds ⟨v, loops⟩ :=
  ⟨h.state, fun other hl => h.loops other (List.mem_cons_of_mem _ hl), h.memory, h.acks, h.control⟩

/-- The innermost call is to a listener. -/
theorem Hears.innermost {listener : Nat} {stack : List Frame} (h : Hears x Meant Holds (c.at x))
    (hs : c.stack = .emit x data listener rest :: stack) : Hears x Meant Holds
      ⟨(c.at x).view, (data, listener, rest) :: stack.filterMap (Frame.loop x)⟩ := by
  rw [← filterMap_loop hs]
  exact h

/-- **What one event leaves of it.** -/
theorem Hears.move (h : Hears x Meant Holds (c.at x))
    (takes : ∀ text p, e = .receive text → readPacket text = some p → p.isData → p.tid = x →
      Honest x Meant Holds p) (move : Move o x c e m) : Hears x Meant Holds m := by
  cases move with
  | clean cleaned => exact h.passes (.of_cleaned cleaned)
  | nack tid b sent =>
    refine h.passes ⟨fun _ h => h, fun _ h _ => h, sent.map fun p => .answered (.nack p), rfl, ?_⟩
    intro q hq
    obtain ⟨nack, -, same⟩ := List.mem_map.mp hq
    cases same
    exact ⟨nack, rfl⟩
  | detach =>
    refine h.passes ⟨?_, fun _ h _ => h, [], rfl, by simp⟩
    rintro s ⟨⟩
  | @error _ message w read lapse =>
    have told : Passes (c.at x).view ((c.at x).view.record (.error (some x) ⟨.error, message⟩)) :=
      .record _ (by simp)
    exact h.passes (told.trans ((Passes.failed _ _ false).trans (.of_lapse lapse)))
  | reack read isData own remembered ok => exact h.ack (h.memory _ remembered ok)
  | absorb read isData own fresh cleaned absorbed =>
    have before := h.passes (.of_cleaned cleaned)
    obtain ⟨holds, -⟩ := takes _ _ rfl read isData own _ _ _ _ _ before.state absorbed
    exact before.absorbed holds _
  | @assemble _ p w s reports data m read isData own fresh cleaned absorbed looped =>
    have before := h.passes (.of_cleaned cleaned)
    obtain ⟨holds, meant⟩ := takes _ _ rfl read isData own _ _ _ _ _ before.state absorbed
    have taken := before.absorbed holds reports
    have gone : Passes (w.absorbed x s reports) ({ w.absorbed x s reports with state := none }.record
        (.assembled x data c.transport.listeners)) := by
      refine ⟨?_, fun _ h _ => h, [.assembled x data c.transport.listeners], rfl, by simp⟩
      rintro s' ⟨⟩
    have start : Emitting x data ([] ++ c.transport.listeners) [] []
        ({ w.absorbed x s reports with state := none }.record
          (.assembled x data c.transport.listeners)).log :=
      ⟨[], (w.absorbed x s reports).log, rfl, by simp, by simp⟩
    exact (taken.passes gone).looped (meant data rfl) start looped
  | @next data listener rest stack m hs looped =>
    have running := h.innermost hs
    obtain ⟨meant, told, emitting⟩ := running.loops _ List.mem_cons_self
    have returned := running.tail.passes
      (Passes.record _ (e := .returned x data listener) (by simp))
    have went := emitting.return listener
    rw [← List.singleton_append, ← List.append_assoc] at went
    exact returned.looped meant went looped
  | @throw data listener rest stack hs =>
    exact (h.innermost hs).tail.passes ((Passes.record _ (e := .threw x listener) (by simp)).trans
      (.record _ (e := .error (some x) ⟨.packet, []⟩) (by simp)))

/-! ## The log grows -/

theorem Passes.grows (h : Passes v w) : v.log <:+ w.log := by
  obtain ⟨es, eq, -⟩ := h.log
  exact ⟨es, eq.symm⟩

theorem Looped.grows {now : Nat} (h : Looped o now x data v loops rest m) :
    v.log <:+ m.view.log := by
  cases h with
  | call listener rest => exact List.suffix_cons _ _
  | @finish w lapse => exact (Passes.of_lapse lapse).grows.trans (List.suffix_cons _ _)

theorem Move.grows (move : Move o x c e m) : (c.at x).view.log <:+ m.view.log := by
  cases move with
  | clean cleaned => exact (Passes.of_cleaned cleaned).grows
  | nack tid b sent => exact List.suffix_append _ _
  | detach => exact List.suffix_refl _
  | @error _ message w read lapse =>
    exact (List.suffix_cons (.error (some x) ⟨.error, message⟩) _).trans
      (Passes.of_lapse lapse).grows
  | reack read isData own remembered ok => exact List.suffix_cons _ _
  | absorb read isData own fresh cleaned absorbed =>
    exact (Passes.of_cleaned cleaned).grows.trans (List.suffix_append _ _)
  | assemble read isData own fresh cleaned absorbed looped =>
    exact (Passes.of_cleaned cleaned).grows.trans ((List.suffix_append _ _).trans
      ((List.suffix_cons _ _).trans looped.grows))
  | next hs looped => exact (List.suffix_cons _ _).trans looped.grows
  | throw hs => exact (List.suffix_cons _ _).trans (List.suffix_cons _ _)

/-- What was answered stays in the log. -/
theorem answered_step (hr : c.transport.reliable = some o) (hstep : c.step e = some c')
    {q : JSONTransportPacket} (hq : .answered q ∈ c.transport.log) :
    .answered q ∈ c'.transport.log := by
  have about : Effect.about q.tid (.answered q) = true := by simp [Effect.about]
  have grows := (step_move (x := q.tid) hr hstep).grows
  exact (List.mem_filter.mp (grows.subset (List.mem_filter.mpr ⟨hq, about⟩))).1

end LemonModel
