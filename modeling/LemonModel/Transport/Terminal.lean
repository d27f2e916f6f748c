import LemonModel.Transport.Once

/-!
# One end for every received tid

A tid that has ended is remembered instead of buffered. Two packets get past
that: a `json:error` is obeyed for a remembered tid as well, and a packet of a
tid whose own partial has just expired opens a new partial after the cleanup in
`getState` has settled the tid.
-/

namespace LemonModel

open Text

/-- How often the end of `tid` was reported: its value, a `json:error`, or its
expiry. -/
def notices (tid : JSString) (log : List Effect) : Nat :=
  log.countP fun
    | .assembled x _ _ => x = tid
    | .error (some x) r => x = tid && (r.scope = .error || r.scope = .partialExpired)
    | _ => false

/-- How often `tid` was let go: its entry dropped, or its value lost to a
listener that threw. -/
def releases (tid : JSString) (log : List Effect) : Nat :=
  log.countP fun
    | .forgot x => x = tid
    | .threw x _ => x = tid
    | _ => false

/-- A `json:error` finds its tid not yet ended, a packet finds its tid's partial
not expired, and neither comes from inside a listener called with that tid. -/
def Orderly (tid : JSString) (c : Config) : Event → Prop
  | .receive text => ∀ p ∈ readPacket text, p.tid = tid → Transport.isControl p = false →
    (c.at tid).loops = [] ∧
      if p.isData then tid ∉ c.transport.expiredPartials
      else c.transport.settledReceived.get? tid = none
  | _ => True

instance (tid : JSString) (c : Config) (e : Event) : Decidable (Orderly tid c e) := by
  rcases e with ⟨⟩ <;> dsimp only [Orderly] <;> infer_instance

namespace Local

def notices (tid : JSString) (m : Local) : Nat := LemonModel.notices tid m.view.log

def releases (tid : JSString) (m : Local) : Nat := LemonModel.releases tid m.view.log

/-- The tid has ended and is remembered, or its value is on its way to the
listeners. -/
def held (m : Local) : Nat := if m.view.memory.isSome ∨ m.loops ≠ [] then 1 else 0

/-- Notices that no memory accounts for. -/
def debt (tid : JSString) (m : Local) : Int := m.notices tid - m.held - m.releases tid

end Local

/-- A tid is buffered, on its way to the listeners, or remembered: one of them. -/
structure Apart (m : Local) : Prop where
  single : m.loops.length ≤ 1
  looping : m.loops ≠ [] → m.view.state = none ∧ m.view.memory = none
  buffered : m.view.state.isSome → m.view.memory = none

/-- From `m` to `m'` no notice is given for a remembered tid, and an entry stays
what it is. -/
structure Kept (tid : JSString) (m m' : Local) : Prop where
  debt_le : m'.debt tid ≤ m.debt tid
  releases_le : m.releases tid ≤ m'.releases tid
  memory : ∀ entry, m.view.memory = some entry →
    m'.view.memory = some entry ∨ m.releases tid < m'.releases tid

variable {o : ReliableOptions} {x : JSString} {c c' : Config} {e : Event}

theorem Kept.refl (m : Local) : Kept x m m := ⟨le_refl _, le_refl _, fun _ h => .inl h⟩

theorem Kept.trans {a b c : Local} (h₁ : Kept x a b) (h₂ : Kept x b c) : Kept x a c where
  debt_le := h₂.debt_le.trans h₁.debt_le
  releases_le := h₁.releases_le.trans h₂.releases_le
  memory entry ha := by
    rcases h₁.memory entry ha with hb | hb
    · rcases h₂.memory entry hb with hc | hc
      · exact .inl hc
      · exact .inr (lt_of_le_of_lt h₁.releases_le hc)
    · exact .inr (lt_of_lt_of_le hb h₂.releases_le)

/-! ## Counting effects -/

/-- What an effect adds to the notices of `tid`. -/
def Effect.notice (tid : JSString) : Effect → Nat
  | .assembled x _ _ => if x = tid then 1 else 0
  | .error (some x) r => if x = tid ∧ (r.scope = .error ∨ r.scope = .partialExpired) then 1 else 0
  | _ => 0

/-- What an effect adds to the releases of `tid`. -/
def Effect.release (tid : JSString) : Effect → Nat
  | .forgot x => if x = tid then 1 else 0
  | .threw x _ => if x = tid then 1 else 0
  | _ => 0

theorem notices_cons (e : Effect) (log : List Effect) :
    notices x (e :: log) = notices x log + e.notice x := by
  rw [notices, List.countP_cons, notices]
  congr 1
  cases e with
  | error tid r => cases tid <;> simp [Effect.notice]
  | _ => simp [Effect.notice]

theorem releases_cons (e : Effect) (log : List Effect) :
    releases x (e :: log) = releases x log + e.release x := by
  rw [releases, List.countP_cons, releases]
  congr 1
  cases e <;> simp [Effect.release]

theorem counts_append {es : List Effect} (log : List Effect)
    (h : ∀ e ∈ es, e.notice x = 0 ∧ e.release x = 0) :
    notices x (es ++ log) = notices x log ∧ releases x (es ++ log) = releases x log := by
  induction es with
  | nil => exact ⟨rfl, rfl⟩
  | cons e es ih =>
    obtain ⟨hn, hr⟩ := ih fun e he => h e (List.mem_cons_of_mem _ he)
    obtain ⟨en, er⟩ := h e List.mem_cons_self
    rw [List.cons_append, notices_cons, releases_cons, hn, hr, en, er]
    exact ⟨rfl, rfl⟩

/-- An effect that neither ends a tid nor lets it go. -/
theorem complaint_counts {reports : List Report} (h : ∀ r ∈ reports, r.scope ∈ complaints) :
    ∀ e ∈ (reports.map (Effect.error (some x))).reverse, e.notice x = 0 ∧ e.release x = 0 := by
  intro e he
  obtain ⟨r, hr, rfl⟩ := List.mem_map.mp (List.mem_reverse.mp he)
  have hs := h r hr
  refine ⟨if_neg fun hc => ?_, rfl⟩
  rcases hc.2 with hf | hf <;> rw [hf] at hs <;> revert hs <;> decide

/-! ## The pieces of a move -/

section

variable {v w : View} {loops : List (Json × Nat × List Nat)}

/-- Only the partial state, the nack timer and effects that count for nothing
change. -/
theorem Kept.of_log (es : List Effect) (log : w.log = es ++ v.log) (memory : w.memory = v.memory)
    (h : ∀ e ∈ es, e.notice x = 0 ∧ e.release x = 0) : Kept x ⟨v, loops⟩ ⟨w, loops⟩ := by
  obtain ⟨hn, hr⟩ := counts_append v.log h
  rw [← log] at hn hr
  refine ⟨?_, ?_, fun entry he => .inl (memory.trans he)⟩
  · simp only [Local.debt, Local.notices, Local.releases, Local.held, hn, hr, memory]
    exact le_refl _
  · simp only [Local.releases, hr]
    exact le_refl _

theorem Kept.of_lapse (h : View.Lapse x v w) : Kept x ⟨v, loops⟩ ⟨w, loops⟩ := by
  cases h with
  | keep => exact .refl _
  | lose hm =>
    have hr : releases x (v.lose x).log = releases x v.log + 1 := by
      simp [View.lose, releases_cons, Effect.release]
    have hn : notices x (v.lose x).log = notices x v.log := by
      simp [View.lose, notices_cons, Effect.notice]
    refine ⟨?_, ?_, fun entry _ => .inr ?_⟩
    · simp only [Local.debt, Local.notices, Local.releases, Local.held, hr, hn, hm, true_or, if_true]
      split <;> omega
    · simp only [Local.releases, hr]
      omega
    · simp only [Local.releases, hr]
      omega

theorem Apart.of_lapse (h : View.Lapse x v w) (apart : Apart ⟨v, loops⟩) : Apart ⟨w, loops⟩ := by
  cases h with
  | keep => exact apart
  | lose _ => exact ⟨apart.single, fun hl => ⟨(apart.looping hl).1, rfl⟩, fun _ => rfl⟩

theorem Lapse.of_none (h : View.Lapse x v w) (hm : v.memory = none) : w = v := by
  cases h with
  | keep => rfl
  | lose hs => simp [hm] at hs

/-- The end of a tid: it is noted, and from then on remembered unless the cap
drops it at once. -/
theorem Kept.of_end {e : Effect} {entry : SettledEntry} {state : Option JSONReceiveState}
    {nack : Bool} (idle : v.memory = none) (he : e.notice x = 1) (hr : e.release x = 0)
    (h : View.Lapse x ⟨state, some entry, nack, e :: v.log⟩ w) : Kept x ⟨v, []⟩ ⟨w, []⟩ := by
  refine Kept.trans (b := ⟨⟨state, some entry, nack, e :: v.log⟩, []⟩) ⟨?_, ?_, ?_⟩ (.of_lapse h)
  · simp [Local.debt, Local.notices, Local.releases, Local.held, notices_cons, releases_cons, he, hr,
      idle]
  · simp [Local.releases, releases_cons, hr]
  · simp [idle]

theorem expiry_counts :
    (Effect.error (some x) (Transport.expiredReport x)).notice x = 1 ∧
      (Effect.error (some x) (Transport.expiredReport x)).release x = 0 := by
  simp [Effect.notice, Effect.release, Transport.expiredReport, report]

/-- `cleanup` and the state of a tid, whether its partial has expired or not. -/
theorem cleaned_kept {now : Nat} {b : Bool} (h : Cleaned o now x v b w) (apart : Apart ⟨v, loops⟩) :
    Apart ⟨w, loops⟩ ∧ Kept x ⟨v, loops⟩ ⟨w, loops⟩ := by
  cases h with
  | live h => exact ⟨apart.of_lapse h, .of_lapse h⟩
  | @expired v₁ w₁ u hs h₁ h₂ h₃ =>
    have idle : v.memory = none := apart.buffered hs
    have quiet : loops = [] := by
      by_contra hl
      have gone : v.state = none := (apart.looping hl).1
      rw [gone] at hs
      cases hs
    obtain rfl := Lapse.of_none h₁ idle
    subst quiet
    have ended : Kept x ⟨v₁, []⟩ ⟨w₁.record (.error (some x) (Transport.expiredReport x)), []⟩ := by
      obtain ⟨hn, hr⟩ := expiry_counts (x := x)
      cases h₂ with
      | keep => exact .of_end idle hn hr .keep
      | lose _ =>
        have forgot : (Effect.forgot x).notice x = 0 ∧ (Effect.forgot x).release x = 1 := by
          simp [Effect.notice, Effect.release]
        refine ⟨?_, ?_, by simp [idle]⟩
        · simp only [Local.debt, Local.notices, Local.releases, Local.held, View.lose, View.record,
            notices_cons, releases_cons, hn, hr, idle, forgot.1, forgot.2]
          simp
        · simp only [Local.releases, View.lose, View.record, releases_cons, hr, forgot.2]
          omega
    have gone : w₁.state = none := h₂.state_eq
    have apart' : Apart ⟨w₁.record (.error (some x) (Transport.expiredReport x)), []⟩ :=
      ⟨by simp, by simp, by simp [View.record, gone]⟩
    exact ⟨apart'.of_lapse h₃, ended.trans (.of_lapse h₃)⟩

end

/-- The listeners are called one by one; the last one's return settles the
tid. -/
theorem looped_kept {now : Nat} {data : Json} {v : View} {rest : List Nat} {m : Local}
    {p : Json × Nat × List Nat} (h : Looped o now x data v [] rest m) (state : v.state = none)
    (memory : v.memory = none) : Apart m ∧ Kept x ⟨v, [p]⟩ m := by
  cases h with
  | call listener rest =>
    refine ⟨⟨by simp, fun _ => ⟨state, memory⟩, fun _ => memory⟩, ?_, ?_, ?_⟩
    · simp [Local.debt, Local.notices, Local.releases, Local.held, View.record, notices_cons,
        releases_cons, Effect.notice, Effect.release]
    · simp [Local.releases, View.record, releases_cons, Effect.release]
    · simp [memory]
  | @finish w hw =>
    have settled : Kept x ⟨v, [p]⟩
        ⟨{ v with memory := some ⟨.ok, now + o.settledTtlMs⟩, nack := false }, []⟩ := by
      refine ⟨?_, le_refl _, by simp [memory]⟩
      simp [Local.debt, Local.notices, Local.releases, Local.held]
    have answered : Kept x ⟨w, []⟩ ⟨w.record (.answered (.ack x)), []⟩ :=
      .of_log [.answered (.ack x)] rfl rfl (by simp [Effect.notice, Effect.release])
    have gone : w.state = none := hw.state_eq.trans state
    exact ⟨⟨by simp, by simp, by simp [View.record, gone]⟩,
      (settled.trans (.of_lapse hw)).trans answered⟩

/-- A packet that is let through finds its tid idle, and no cleanup in its
way. -/
theorem Orderly.live {text : JSString} {p : JSONTransportPacket} {w : View}
    (orderly : Orderly x c (.receive text)) (hp : readPacket text = some p) (hd : p.isData)
    (hx : p.tid = x) (hm : (c.at x).view.memory = none)
    (cleaned : Cleaned o c.transport.now x (c.at x).view
      (decide (x ∈ c.transport.expiredPartials)) w) :
    (c.at x).loops = [] ∧ w = (c.at x).view := by
  have data : Transport.isControl p = false := by
    cases p <;> simp_all [JSONTransportPacket.isData, Transport.isControl]
  obtain ⟨idle, live⟩ := orderly p hp hx data
  rw [if_pos hd] at live
  rw [decide_eq_false live] at cleaned
  cases cleaned with
  | live lapse => exact ⟨idle, Lapse.of_none lapse hm⟩

/-- The tid of the innermost listener call. -/
theorem Apart.head {data : Json} {listener : Nat} {rest : List Nat} {stack : List Frame}
    (apart : Apart (c.at x)) (hs : c.stack = .emit x data listener rest :: stack) :
    stack.filterMap (Frame.loop x) = [] ∧
      c.at x = ⟨(c.at x).view, [(data, listener, rest)]⟩ ∧
      (c.at x).view.state = none ∧ (c.at x).view.memory = none := by
  have loops : (c.at x).loops = (data, listener, rest) :: stack.filterMap (Frame.loop x) :=
    filterMap_loop hs
  have single := apart.single
  have idle : stack.filterMap (Frame.loop x) = [] := by
    rw [loops] at single
    simpa using single
  rw [idle] at loops
  have busy := apart.looping (by simp [loops])
  exact ⟨idle, by rw [← loops], busy.1, busy.2⟩

/-- **The step lemma.** -/
theorem move_kept (orderly : Orderly x c e) {m : Local} (move : Move o x c e m)
    (apart : Apart (c.at x)) : Apart m ∧ Kept x (c.at x) m := by
  cases move with
  | clean cleaned => exact cleaned_kept cleaned apart
  | nack tid b sent =>
    refine ⟨⟨apart.single, apart.looping, apart.buffered⟩, ?_⟩
    refine Kept.of_log (sent.map fun p => .answered (.nack p)) rfl rfl fun e he => ?_
    obtain ⟨p, _, rfl⟩ := List.mem_map.mp he
    exact ⟨rfl, rfl⟩
  | detach =>
    refine ⟨⟨apart.single, fun hl => ⟨rfl, (apart.looping hl).2⟩, by simp⟩, ?_⟩
    exact Kept.of_log [] rfl rfl (by simp)
  | @error text message w hp lapse =>
    have fresh := orderly (.error x message) hp rfl rfl
    have idle : (c.at x).loops = [] := fresh.1
    have memory : (c.at x).view.memory = none := fresh.2
    have state : w.state = none := lapse.state_eq
    rw [idle]
    refine ⟨⟨by simp, by simp, by simp [state]⟩, ?_⟩
    have eq : c.at x = ⟨(c.at x).view, []⟩ := by rw [← idle]
    rw [eq]
    exact .of_end memory (by simp [Effect.notice]) rfl lapse
  | reack hp hd hx hm hok =>
    refine ⟨⟨apart.single, apart.looping, apart.buffered⟩, ?_⟩
    exact Kept.of_log [.answered (.ack x)] rfl rfl
      (by simp [Effect.notice, Effect.release])
  | @absorb text p w s reports hp hd hx hm cleaned ha =>
    obtain ⟨idle, rfl⟩ := orderly.live hp hd hx hm cleaned
    have scopes := absorb_scope true c.transport.now ((c.at x).view.opened x c.transport.now) p
    rw [ha] at scopes
    refine ⟨⟨apart.single, fun hl => absurd idle hl, fun _ => hm⟩, ?_⟩
    exact Kept.of_log _ rfl rfl (complaint_counts scopes)
  | @assemble text p w s reports data m hp hd hx hm cleaned ha looped =>
    obtain ⟨idle, rfl⟩ := orderly.live hp hd hx hm cleaned
    have scopes := absorb_scope true c.transport.now ((c.at x).view.opened x c.transport.now) p
    rw [ha] at scopes
    rw [idle] at looped
    obtain ⟨apart', kept⟩ := looped_kept (p := (data, 0, [])) looped rfl hm
    have eq : c.at x = ⟨(c.at x).view, []⟩ := by rw [← idle]
    have absorbed : Kept x (c.at x) ⟨(c.at x).view.absorbed x s reports, []⟩ := by
      rw [eq]
      exact Kept.of_log _ rfl rfl (complaint_counts scopes)
    have memory : ((c.at x).view.absorbed x s reports).memory = none := hm
    refine ⟨apart', (absorbed.trans ⟨?_, ?_, ?_⟩).trans kept⟩
    · simp [Local.debt, Local.notices, Local.releases, Local.held, View.record, notices_cons,
        releases_cons, Effect.notice, Effect.release, memory]
    · simp [Local.releases, View.record, releases_cons, Effect.release]
    · exact fun entry he => .inl he
  | @next data listener rest stack m hs looped =>
    obtain ⟨idle, eq, state, memory⟩ := apart.head hs
    rw [idle] at looped
    obtain ⟨apart', kept⟩ := looped_kept (p := (data, listener, rest)) looped state memory
    have returned : Kept x ⟨(c.at x).view, [(data, listener, rest)]⟩
        ⟨(c.at x).view.record (.returned x data listener), [(data, listener, rest)]⟩ :=
      .of_log [.returned x data listener] rfl rfl
        (by simp [Effect.notice, Effect.release])
    rw [eq]
    exact ⟨apart', returned.trans kept⟩
  | @throw data listener rest stack hs =>
    obtain ⟨idle, eq, state, memory⟩ := apart.head hs
    rw [eq, idle]
    refine ⟨⟨by simp, by simp, fun _ => memory⟩, ?_, ?_, ?_⟩
    · simp [Local.debt, Local.notices, Local.releases, Local.held, View.record, notices_cons,
        releases_cons, Effect.notice, Effect.release, memory]
      omega
    · simp [Local.releases, View.record, releases_cons, Effect.release]
    · simp [memory]

/-! ## Whole runs -/

theorem run_kept {c₀ : Config} {es : List Event} (run : Run Config.step (Orderly x) c₀ es c)
    (hr : c₀.transport.reliable = some o) (apart : Apart (c₀.at x)) :
    c.transport.reliable = some o ∧ Apart (c.at x) ∧ Kept x (c₀.at x) (c.at x) := by
  refine run.invariant (fun c => c.transport.reliable = some o ∧ Apart (c.at x) ∧
    Kept x (c₀.at x) (c.at x)) ?_ ⟨hr, apart, .refl _⟩
  rintro s e s' ⟨hr, apart, kept⟩ orderly hstep
  obtain ⟨apart', kept'⟩ := move_kept orderly (step_move hr hstep) apart
  exact ⟨(step_reliable hstep).1.trans hr, apart', kept.trans kept'⟩

theorem notices_view (t : Transport) : notices x (t.view x).log = notices x t.log := by
  rw [notices, notices, Transport.view, List.countP_filter]
  congr 1
  funext e
  cases e with
  | assembled y data ls => by_cases hy : y = x <;> simp [Effect.about, hy]
  | error tid r =>
    cases tid with
    | none => rfl
    | some y =>
      by_cases hf : r.scope = .failed <;> by_cases hy : y = x <;> simp [Effect.about, hy, hf]
  | _ => rfl

theorem releases_view (t : Transport) : releases x (t.view x).log = releases x t.log := by
  rw [releases, releases, Transport.view, List.countP_filter]
  congr 1
  funext e
  cases e with
  | forgot y => by_cases hy : y = x <;> simp [Effect.about, hy]
  | threw y l => by_cases hy : y = x <;> simp [Effect.about, hy]
  | _ => rfl

/-- **A received tid ends once.** Take a run in which every `json:error` finds
its tid not yet ended and every packet of `tid` finds the tid's partial not
expired. In every state `tid` is not both buffered and remembered. Between two
states of the run, as long as `tid` is not let go, a remembered outcome stays
what it is, and the end of `tid` is reported once at most, and not at all where
it was remembered at the start. -/
theorem ended_at_most_once {options : SplitOptions} {partialTtlMs now : Nat} {tid : JSString}
    {es₁ es₂ : List Event} {c₁ c₂ : Config}
    (before : Run Config.step (Orderly tid)
      (.start (.create options partialTtlMs (some o) now)) es₁ c₁)
    (after : Run Config.step (Orderly tid) c₁ es₂ c₂) :
    ¬ (c₂.transport.states.has tid = true ∧ c₂.transport.settledReceived.has tid = true) ∧
      (releases tid c₂.transport.log = releases tid c₁.transport.log →
        (∀ entry, c₁.transport.settledReceived.get? tid = some entry →
          c₂.transport.settledReceived.get? tid = some entry) ∧
        notices tid c₂.transport.log ≤ notices tid c₁.transport.log +
          if c₁.transport.settledReceived.has tid then 0 else 1) := by
  have first : Apart ((Config.start (.create options partialTtlMs (some o) now)).at tid) :=
    ⟨by simp [Config.at, Config.start], by simp [Config.at, Config.start], fun _ => rfl⟩
  obtain ⟨hr, apart₁, _⟩ := run_kept before rfl first
  obtain ⟨_, apart, kept⟩ := run_kept after hr apart₁
  refine ⟨fun both => ?_, fun same => ⟨fun entry h => ?_, ?_⟩⟩
  · have memory := apart.buffered both.1
    have forgotten : c₂.transport.settledReceived.has tid = false := Dict.has_eq_false.mpr memory
    rw [forgotten] at both
    cases both.2
  · rcases kept.memory entry h with h | h
    · exact h
    · simp only [Local.releases, Config.at, releases_view, same] at h
      exact absurd h (lt_irrefl _)
  · have debt := kept.debt_le
    simp only [Local.debt, Local.notices, Local.releases, Config.at, releases_view, notices_view,
      same] at debt
    have most : (Local.held (c₂.at tid)) ≤ 1 := by
      unfold Local.held
      split <;> omega
    cases hh : c₁.transport.settledReceived.has tid with
    | false =>
      simp only [Bool.false_eq_true, if_false]
      simp only [Config.at] at most
      omega
    | true =>
      have least : (c₁.at tid).held = 1 := if_pos (.inl hh)
      simp only [Config.at] at most least
      simp only [if_true]
      omega

theorem ended_at_most_once_greeting :
    ∃ c₁ c₂, exec Config.step receiver (heard [true, true]) = some c₁ ∧
      exec Config.step c₁ [.receive greeting.wire, .reply true] = some c₂ ∧
      ¬ (c₂.transport.states.has (lit "t") = true ∧
        c₂.transport.settledReceived.has (lit "t") = true) := by
  obtain ⟨c₂, run⟩ := Run.of_allGood Config.step (Orderly (lit "t")) receiver
    (heard [true, true] ++ [.receive greeting.wire, .reply true]) (by decide +kernel)
  obtain ⟨c₁, before, after⟩ := run.split
  exact ⟨c₁, c₂, before.exec_eq, after.exec_eq, (ended_at_most_once before after).1⟩

/-- The two packets that get past the memory: one that comes as its own tid's
partial expires leaves the tid both buffered and remembered, and a `json:error`
turns a remembered `ok` into `fail`. -/
theorem ended_twice :
    (¬ ∀ es c, exec Config.step receiver es = some c → ∀ tid,
      ¬ (c.transport.states.has tid = true ∧ c.transport.settledReceived.has tid = true)) ∧
    ¬ ∀ es₁ es₂ c₁ c₂, exec Config.step receiver es₁ = some c₁ →
      exec Config.step c₁ es₂ = some c₂ → ∀ tid entry entry',
        releases tid c₂.transport.log = releases tid c₁.transport.log →
        c₁.transport.settledReceived.get? tid = some entry →
        c₂.transport.settledReceived.get? tid = some entry' → entry'.outcome = entry.outcome := by
  constructor
  · intro h
    have run : ((exec Config.step receiver
        [.receive greeting.wire, .advance (DEFAULT_PARTIAL_TTL_MS + 1), .receive greeting.wire]).map
        fun c => (c.transport.states.has (lit "t"), c.transport.settledReceived.has (lit "t"))) =
        some (true, true) := by decide +kernel
    obtain ⟨c, hc, both⟩ := Option.map_eq_some_iff.mp run
    rw [Prod.mk.injEq] at both
    exact h _ c hc _ both
  · intro h
    have run : ((exec Config.step receiver (heard [true, true])).bind fun c₁ =>
        (exec Config.step c₁ [.receive (JSONTransportPacket.error (lit "t") []).wire]).map fun c₂ =>
          (releases (lit "t") c₁.transport.log, releases (lit "t") c₂.transport.log,
            c₁.transport.settledReceived.get? (lit "t"),
            c₂.transport.settledReceived.get? (lit "t"))) =
        some (0, 0, some ⟨.ok, 300000⟩, some ⟨.fail, 300000⟩) := by decide +kernel
    obtain ⟨c₁, h₁, run⟩ := Option.bind_eq_some_iff.mp run
    obtain ⟨c₂, h₂, read⟩ := Option.map_eq_some_iff.mp run
    simp only [Prod.mk.injEq] at read
    have := h _ _ c₁ c₂ h₁ h₂ _ _ _ (read.2.1.trans read.1.symm) read.2.2.1 read.2.2.2
    cases this

end LemonModel
