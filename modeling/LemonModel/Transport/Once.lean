import LemonModel.Transport.Moves

/-!
# At most one call per listener and tid

A reliable receiver remembers a tid once its listeners have returned, and calls
nobody for a remembered tid. The listener loop comes before the entry, so the
law needs the loop to run to its end undisturbed.
-/

namespace LemonModel

open Text

/-- How often `listener` was called with the value of `tid`. -/
def calls (tid : JSString) (listener : Nat) (log : List Effect) : Nat :=
  log.countP fun
    | .called x _ l => x = tid && l = listener
    | _ => false

def wasAssembled (tid : JSString) (log : List Effect) : Bool :=
  log.any fun
    | .assembled x _ _ => x = tid
    | _ => false

def wasForgotten (tid : JSString) (log : List Effect) : Bool :=
  log.any fun
    | .forgot x => x = tid
    | _ => false

/-- The step does not throw out of a listener called with the value of `tid`,
and brings no packet of `tid` while such a call is on. -/
def Undisturbed (tid : JSString) (c : Config) : Event → Prop
  | .reply false => ∀ f ∈ c.stack.head?, f.loop tid = none
  | .receive text => ∀ p ∈ readPacket text, p.isData → p.tid = tid → (c.at tid).loops = []
  | _ => True

instance (tid : JSString) (c : Config) (e : Event) : Decidable (Undisturbed tid c e) := by
  unfold Undisturbed
  split <;> infer_instance

/-- The calls made and still to come, one listener at a time. -/
structure Once (tid : JSString) (m : Local) : Prop where
  single : m.loops.length ≤ 1
  bound : ∀ l, calls tid l m.view.log + (m.loops.map fun p => p.2.2.count l).sum ≤ 1
  fresh : wasAssembled tid m.view.log = false →
    (∀ l, calls tid l m.view.log = 0) ∧ m.loops = []
  held : wasAssembled tid m.view.log = true → m.view.memory.isSome ∨ m.loops ≠ []

def OnceOrForgotten (tid : JSString) (m : Local) : Prop :=
  wasForgotten tid m.view.log = true ∨ Once tid m

variable {o : ReliableOptions} {x : JSString} {c c' : Config} {e : Event}

/-! ## Effects that are no calls -/

/-- An effect that calls nobody and assembles nothing. -/
def Effect.silent : Effect → Bool
  | .called _ _ _ => false
  | .assembled _ _ _ => false
  | _ => true

theorem calls_cons (e : Effect) (log : List Effect) (l : Nat) :
    calls x l (e :: log) = calls x l log +
      match e with
      | .called y _ k => if y = x ∧ k = l then 1 else 0
      | _ => 0 := by
  cases e with
  | called y data k =>
    rw [calls, List.countP_cons]
    congr 1
    by_cases hy : y = x <;> by_cases hk : k = l <;> simp [hy, hk]
  | _ => rw [calls, List.countP_cons_of_neg (by simp)]; rfl

theorem calls_silent {es : List Effect} (log : List Effect) (h : ∀ e ∈ es, e.silent = true) (l : Nat) :
    calls x l (es ++ log) = calls x l log ∧ wasAssembled x (es ++ log) = wasAssembled x log := by
  induction es with
  | nil => exact ⟨rfl, rfl⟩
  | cons e es ih =>
    obtain ⟨hc, ha⟩ := ih fun e he => h e (List.mem_cons_of_mem _ he)
    have he := h e List.mem_cons_self
    rw [List.cons_append, calls_cons, wasAssembled, List.any_cons, ← wasAssembled, hc, ha]
    cases e <;> first | exact ⟨rfl, rfl⟩ | cases he

theorem forgotten_append (es : List Effect) {log : List Effect} (h : wasForgotten x log = true) :
    wasForgotten x (es ++ log) = true := by
  rw [wasForgotten, List.any_append]
  exact Bool.or_eq_true_iff.mpr (.inr h)

/-- From `v` to `w` nobody is called, and what is remembered stays so or is
recorded as forgotten. -/
structure Calm (x : JSString) (v w : View) : Prop where
  log : ∃ es, w.log = es ++ v.log ∧ ∀ e ∈ es, Effect.silent e = true
  memory : v.memory.isSome → w.memory.isSome ∨ wasForgotten x w.log = true

namespace Calm

theorem of_eq {v w : View} (log : w.log = v.log) (memory : w.memory = v.memory) : Calm x v w :=
  ⟨⟨[], log, by simp⟩, fun h => .inl (memory ▸ h)⟩

theorem of_memory {v w : View} (log : w.log = v.log) (memory : w.memory.isSome) : Calm x v w :=
  ⟨⟨[], log, by simp⟩, fun _ => .inl memory⟩

theorem forgotten {v w : View} (h : Calm x v w) (hv : wasForgotten x v.log = true) :
    wasForgotten x w.log = true := by
  obtain ⟨es, hes, _⟩ := h.log
  rw [hes]
  exact forgotten_append es hv

theorem trans {u v w : View} (h₁ : Calm x u v) (h₂ : Calm x v w) : Calm x u w := by
  obtain ⟨es₁, eq₁, silent₁⟩ := h₁.log
  obtain ⟨es₂, eq₂, silent₂⟩ := h₂.log
  refine ⟨⟨es₂ ++ es₁, by rw [eq₂, eq₁, List.append_assoc], fun e he => ?_⟩, fun hu => ?_⟩
  · rcases List.mem_append.mp he with h | h
    · exact silent₂ e h
    · exact silent₁ e h
  · rcases h₁.memory hu with hv | hv
    · exact h₂.memory hv
    · exact .inr (h₂.forgotten hv)

theorem of_record {v : View} {e : Effect} (h : e.silent = true) : Calm x v (v.record e) :=
  ⟨⟨[e], rfl, by simpa using h⟩, .inl⟩

theorem of_lapse {v w : View} (h : View.Lapse x v w) : Calm x v w := by
  cases h with
  | keep => exact of_eq rfl rfl
  | lose _ =>
    exact ⟨⟨[.forgot x], rfl, by simp [Effect.silent]⟩, fun _ => .inr (by
      simp [View.lose, wasForgotten])⟩

theorem of_cleaned {now : Nat} {b : Bool} {v w : View} (h : Cleaned o now x v b w) :
    Calm x v w := by
  cases h with
  | live h => exact of_lapse h
  | @expired v₁ w₁ u _ h₁ h₂ h₃ =>
    have settled : Calm x v₁ ⟨none, some ⟨.fail, now + o.settledTtlMs⟩, false, v₁.log⟩ :=
      of_memory rfl rfl
    exact (of_lapse h₁).trans (settled.trans ((of_lapse h₂).trans ((of_record rfl).trans
      (of_lapse h₃))))

theorem of_absorbed {v : View} (s : JSONReceiveState) (reports : List Report) :
    Calm x v (v.absorbed x s reports) :=
  ⟨⟨(reports.map (.error (some x))).reverse, rfl, by simp [Effect.silent]⟩, .inl⟩

/-- Where nobody is called the law stays. -/
theorem once {v w : View} {loops : List (Json × Nat × List Nat)} (calm : Calm x v w)
    (h : OnceOrForgotten x ⟨v, loops⟩) : OnceOrForgotten x ⟨w, loops⟩ := by
  rcases h with hf | h
  · exact .inl (calm.forgotten hf)
  · obtain ⟨es, eq, silent⟩ := calm.log
    have same := calls_silent (x := x) v.log silent
    rw [← eq] at same
    by_cases hf : wasForgotten x w.log = true
    · exact .inl hf
    · right
      refine ⟨h.single, fun l => ?_, fun ha => ?_, fun ha => ?_⟩
      · rw [(same l).1]
        exact h.bound l
      · rw [(same 0).2] at ha
        exact ⟨fun l => (same l).1.trans ((h.fresh ha).1 l), (h.fresh ha).2⟩
      · rw [(same 0).2] at ha
        exact (h.held ha).imp_left fun hm => (calm.memory hm).resolve_right hf

end Calm

/-! ## One step -/

/-- A loop that starts or goes on where nobody else is being called. -/
theorem Looped.once {now : Nat} {data : Json} {v : View} {rest : List Nat} {m : Local}
    (h : Looped o now x data v [] rest m)
    (bound : ∀ l, calls x l v.log + rest.count l ≤ 1) (assembled : wasAssembled x v.log = true) :
    OnceOrForgotten x m := by
  cases h with
  | call listener rest =>
    right
    have same : wasAssembled x (v.record (.called x data listener)).log = true := by
      simpa [View.record, wasAssembled] using assembled
    refine ⟨by simp, fun l => ?_, fun ha => ?_, fun _ => .inr (by simp)⟩
    · have := bound l
      simp only [View.record, calls_cons, List.map_cons, List.map_nil, List.sum_cons, List.sum_nil,
        true_and]
      by_cases hl : listener = l
      · subst hl
        rw [List.count_cons_self] at this
        simp only [if_true]
        omega
      · rw [List.count_cons_of_ne hl] at this
        simpa [hl] using this
    · rw [same] at ha
      cases ha
  | @finish w hw =>
    have settled : Calm x v { v with memory := some ⟨.ok, now + o.settledTtlMs⟩, nack := false } :=
      .of_memory rfl rfl
    have calm := (settled.trans (.of_lapse hw)).trans (.of_record (e := .answered (.ack x)) rfl)
    obtain ⟨es, eq, silent⟩ := calm.log
    have same := calls_silent (x := x) v.log silent
    rw [← eq] at same
    cases hw with
    | lose _ => exact .inl (by simp [View.record, View.lose, wasForgotten])
    | keep =>
      right
      refine ⟨by simp, fun l => ?_, fun ha => ?_, fun _ => .inl rfl⟩
      · rw [(same l).1]
        exact bound l
      · rw [(same 0).2, assembled] at ha
        cases ha

theorem Looped.forgotten {now : Nat} {data : Json} {v : View} {loops : List (Json × Nat × List Nat)}
    {rest : List Nat} {m : Local} (h : Looped o now x data v loops rest m)
    (hv : wasForgotten x v.log = true) : wasForgotten x m.view.log = true := by
  cases h with
  | call listener rest => exact forgotten_append [_] hv
  | finish hw =>
    apply forgotten_append [_]
    exact (Calm.of_lapse hw).forgotten hv

theorem filterMap_loop {stack rest : List Frame} {data : Json} {listener : Nat} {after : List Nat}
    (h : stack = .emit x data listener after :: rest) :
    stack.filterMap (Frame.loop x) = (data, listener, after) :: rest.filterMap (Frame.loop x) := by
  rw [h]
  exact List.filterMap_cons_some (by simp [Frame.loop])

/-- **The step lemma.** -/
theorem move_once (nodup : c.transport.listeners.Nodup) (calm : Undisturbed x c e) {m : Local}
    (move : Move o x c e m) (h : OnceOrForgotten x (c.at x)) : OnceOrForgotten x m := by
  cases move with
  | clean cleaned => exact (Calm.of_cleaned cleaned).once h
  | nack tid b sent =>
    refine Calm.once ⟨⟨sent.map fun p => .answered (.nack p), rfl, ?_⟩, .inl⟩ h
    simp [Effect.silent]
  | detach => exact Calm.once (v := (c.at x).view) (.of_eq rfl rfl) h
  | @error text message w hp lapse =>
    have settled : Calm x ((c.at x).view.record (.error (some x) ⟨.error, message⟩))
        ⟨none, some ⟨.fail, c.transport.now + o.settledTtlMs⟩, false,
          .error (some x) ⟨.error, message⟩ :: (c.at x).view.log⟩ := .of_memory rfl rfl
    exact (((Calm.of_record rfl).trans settled).trans (.of_lapse lapse)).once h
  | reack hp hd hx hm hok => exact (Calm.of_record rfl).once h
  | absorb hp hd hx hm cleaned ha =>
    exact ((Calm.of_cleaned cleaned).trans (.of_absorbed _ _)).once h
  | @assemble text p w s reports data m hp hd hx hm cleaned ha looped =>
    have idle : (c.at x).loops = [] := calm p hp hd hx
    have quiet : Calm x (c.at x).view (w.absorbed x s reports) :=
      (Calm.of_cleaned cleaned).trans (.of_absorbed s reports)
    rw [idle] at looped
    rcases h with hf | once
    · exact .inl (looped.forgotten (forgotten_append [_] (quiet.forgotten hf)))
    · have first : wasAssembled x (c.at x).view.log = false := by
        by_contra ha
        rw [Bool.not_eq_false] at ha
        rcases once.held ha with hmem | hloop
        · simp [hm] at hmem
        · exact hloop idle
      obtain ⟨es, eq, silent⟩ := quiet.log
      have uncalled : ∀ l, calls x l (w.absorbed x s reports).log = 0 := by
        intro l
        rw [eq, (calls_silent _ silent l).1]
        exact (once.fresh first).1 l
      refine looped.once (fun l => ?_) (by simp [View.record, wasAssembled])
      have : calls x l ({ w.absorbed x s reports with state := none }.record
          (.assembled x data c.transport.listeners)).log = 0 := by
        rw [View.record, calls_cons]
        exact uncalled l
      rw [this, Nat.zero_add]
      exact List.nodup_iff_count_le_one.mp nodup l
  | @next data listener rest stack m hs looped =>
    have loops := filterMap_loop (x := x) hs
    rcases h with hf | once
    · exact .inl (looped.forgotten (forgotten_append [_] hf))
    · have single := once.single
      have bound := once.bound
      simp only [Config.at, loops] at single bound
      have idle : stack.filterMap (Frame.loop x) = [] := by
        simpa using single
      rw [idle] at looped bound
      have assembled : wasAssembled x (c.at x).view.log = true := by
        by_contra ha
        rw [Bool.not_eq_true] at ha
        have := (once.fresh ha).2
        simp [Config.at, loops] at this
      refine looped.once (fun l => ?_) (by simpa [View.record, wasAssembled] using assembled)
      rw [View.record, calls_cons]
      have := bound l
      rw [List.map_cons, List.map_nil, List.sum_singleton] at this
      exact this
  | throw hs =>
    have := calm _ (by rw [hs]; rfl)
    simp [Frame.loop] at this

/-! ## Whole runs -/

theorem start_once (options : SplitOptions) (partialTtlMs now : Nat) :
    OnceOrForgotten x ((Config.start (.create options partialTtlMs (some o) now)).at x) :=
  .inr ⟨by simp [Config.at, Config.start],
    fun _ => by simp [Config.at, Config.start, calls, Transport.view, Transport.create],
    fun _ => ⟨fun _ => rfl, rfl⟩, fun ha => by
      simp [Config.at, Config.start, wasAssembled, Transport.view, Transport.create] at ha⟩

theorem run_once {c₀ : Config} {es : List Event}
    (run : Run Config.step (Undisturbed x) c₀ es c) (hr : c₀.transport.reliable = some o)
    (nodup : c₀.transport.listeners.Nodup) (h : OnceOrForgotten x (c₀.at x)) :
    OnceOrForgotten x (c.at x) := by
  have all : c.transport.reliable = some o ∧ c.transport.listeners.Nodup ∧
      OnceOrForgotten x (c.at x) := by
    refine run.invariant (fun c => c.transport.reliable = some o ∧
      c.transport.listeners.Nodup ∧ OnceOrForgotten x (c.at x)) ?_ ⟨hr, nodup, h⟩
    rintro s e s' ⟨hr, nodup, h⟩ calm hstep
    have kept := step_reliable hstep
    exact ⟨kept.1.trans hr, kept.2 nodup, move_once nodup calm (step_move hr hstep) h⟩
  exact all.2.2

theorem calls_view (t : Transport) (l : Nat) : calls x l (t.view x).log = calls x l t.log := by
  rw [calls, calls, Transport.view, List.countP_filter]
  congr 1
  funext e
  cases e with
  | called y data k => by_cases hy : y = x <;> simp [Effect.about, hy]
  | _ => rfl

theorem forgotten_view (t : Transport) : wasForgotten x (t.view x).log = wasForgotten x t.log := by
  rw [wasForgotten, wasForgotten, Transport.view, List.any_filter]
  congr 1
  funext e
  cases e <;> simp [Effect.about]

/-- **At most once, while the tid is remembered.** In a run in which no listener
throws on the value of `tid`, and no packet of `tid` comes in while one is being
called with it, every listener is called at most once with the value of `tid`
for as long as the settled memory has not let `tid` go. -/
theorem delivered_at_most_once {options : SplitOptions} {partialTtlMs now : Nat} {tid : JSString}
    {es : List Event}
    (run : Run Config.step (Undisturbed tid)
      (.start (.create options partialTtlMs (some o) now)) es c)
    (kept : wasForgotten tid c.transport.log = false) (listener : Nat) :
    calls tid listener c.transport.log ≤ 1 := by
  have h := run_once run rfl List.nodup_nil (start_once options partialTtlMs now)
  rcases h with hf | h
  · rw [Config.at, forgotten_view, kept] at hf
    cases hf
  · have := h.bound listener
    rw [Config.at, calls_view] at this
    omega

/-! A message of one packet, received twice. -/

def greeting : JSONTransportPacket :=
  .manifest ⟨lit "t", .obj [(lit "a", .bool true)], []⟩

def receiver : Config :=
  .start (.create .default DEFAULT_PARTIAL_TTL_MS (some .default) 0)

def heard (replies : List Bool) : List Event :=
  .onMessage 0 :: .receive greeting.wire :: .receive (JSONTransportPacket.complete (lit "t")).wire ::
    replies.map .reply

theorem delivered_at_most_once_greeting :
    ∃ c, exec Config.step receiver
      (heard [true, true] ++ [.receive greeting.wire, .reply true]) = some c ∧
      calls (lit "t") 0 c.transport.log ≤ 1 := by
  obtain ⟨c, run⟩ := Run.of_allGood Config.step (Undisturbed (lit "t")) receiver
    (heard [true, true] ++ [.receive greeting.wire, .reply true]) (by decide +kernel)
  refine ⟨c, run.exec_eq, delivered_at_most_once run ?_ 0⟩
  exact run.read (f := fun c => wasForgotten (lit "t") c.transport.log) (a := false)
    (by decide +kernel)

/-- A listener that throws is called again when the message is sent again. -/
theorem throwing_listener_called_twice :
    ¬ ∀ (es : List Event) (c : Config), exec Config.step receiver es = some c →
      ∀ tid listener, wasForgotten tid c.transport.log = false →
        calls tid listener c.transport.log ≤ 1 := by
  intro h
  have run : ((exec Config.step receiver (heard [false] ++ heard [true])).map fun c =>
      (wasForgotten (lit "t") c.transport.log, calls (lit "t") 0 c.transport.log)) =
      some (false, 2) := by decide +kernel
  obtain ⟨c, hc, hlog⟩ := Option.map_eq_some_iff.mp run
  rw [Prod.mk.injEq] at hlog
  have := h _ c hc (lit "t") 0 hlog.1
  omega

end LemonModel
