import LemonModel.Base.Run
import LemonModel.Text.Decimal

/-!
# Several networks as one

The error paths of `MultiSocketNetwork`. An inner network calls the closures that are
subscribed to it; a failed send goes to the composite's own handlers. Handlers are told
apart by a number, and the subscriptions are numbered as they are made.
-/

namespace LemonModel

open Text

namespace MultiSocketNetwork

def MULTI_NETWORK_SCOPE : JSString := lit "network.multi.send"

end MultiSocketNetwork

structure MultiSocketErrorContext where
  scope : JSString
  index : Nat
  deriving DecidableEq

/-- A call of a handler. -/
structure ErrorCall where
  handler : Nat
  error : JSString
  context : MultiSocketErrorContext
  deriving DecidableEq

/-- What a subscription passes to an inner network. -/
structure ErrorClosure where
  subscription : Nat
  handler : Nat
  deriving DecidableEq

/-- `networks` has the closures subscribed to each inner network. `made` has the handler
of every subscription, and `unsubscribed` the subscriptions that were ended. -/
structure MultiSocketNetwork where
  networks : List (List ErrorClosure)
  errorHandlers : List Nat
  made : List Nat
  unsubscribed : List Nat

/-- With `count` networks; an error is the message it throws. -/
def createMultiSocketNetwork (count : Nat) : Except JSString MultiSocketNetwork :=
  if count < 2 then
    .error (lit "@networks (2+) is required - createMultiSocketNetwork(" ++ natText count ++ lit ")")
  else .ok ⟨List.replicate count [], [], [], []⟩

namespace MultiSocketNetwork

def onError (m : MultiSocketNetwork) (handler : Nat) : MultiSocketNetwork :=
  { m with
    networks := m.networks.map (· ++ [⟨m.made.length, handler⟩])
    errorHandlers := m.errorHandlers ++ [handler]
    made := m.made ++ [handler] }

/-- The function that `onError` returned for a subscription of `handler`. -/
def unsubscribe (m : MultiSocketNetwork) (subscription handler : Nat) : MultiSocketNetwork :=
  { m with
    networks := m.networks.map (·.filter (·.subscription ≠ subscription))
    errorHandlers := m.errorHandlers.erase handler
    unsubscribed := subscription :: m.unsubscribed }

/-- An inner network reports an error. -/
def delegate (m : MultiSocketNetwork) (index : Nat) (error scope : JSString) : List ErrorCall :=
  (m.networks[index]?.getD []).map fun closure => ⟨closure.handler, error, ⟨scope, index⟩⟩

/-- `failure` is what the network's `send` throws. What a handler throws is dropped. -/
def trySend (m : MultiSocketNetwork) (index : Nat) (failure : Option JSString) : List ErrorCall :=
  match failure with
  | none => []
  | some error => m.errorHandlers.map fun handler => ⟨handler, error, ⟨MULTI_NETWORK_SCOPE, index⟩⟩

def sendAll (m : MultiSocketNetwork) (failures : Nat → Option JSString) : List ErrorCall :=
  (List.range m.networks.length).flatMap fun index => m.trySend index (failures index)

end MultiSocketNetwork

inductive MultiEvent where
  | onError (handler : Nat)
  | unsubscribe (subscription : Nat)
  deriving DecidableEq

namespace MultiSocketNetwork

/-- One event; `none` where there is no such subscription. -/
def step (m : MultiSocketNetwork) : MultiEvent → Option MultiSocketNetwork
  | .onError handler => some (m.onError handler)
  | .unsubscribe subscription => m.made[subscription]?.map (m.unsubscribe subscription)

/-- The subscriptions that were not ended. -/
def standing (m : MultiSocketNetwork) : List Nat :=
  (List.range m.made.length).filter (· ∉ m.unsubscribed)

/-- How many of them are a handler's. -/
def live (m : MultiSocketNetwork) (handler : Nat) : Nat :=
  m.standing.countP fun n => m.made[n]? = some handler

/-- How often a handler is called. -/
def calls (handler : Nat) (l : List ErrorCall) : Nat := l.countP (·.handler = handler)

/-- Each handler is called on both paths as often as it is subscribed. -/
def Agree (m : MultiSocketNetwork) : Prop :=
  ∀ index < m.networks.length, ∀ handler error scope failures thrown,
    failures index = some thrown →
      calls handler (m.delegate index error scope) = m.live handler ∧
      calls handler ((m.sendAll failures).filter (·.context.index = index)) = m.live handler

/-- A subscription is ended once, or again while its handler has no other. -/
def Once (m : MultiSocketNetwork) : MultiEvent → Prop
  | .unsubscribe subscription =>
    subscription ∈ m.unsubscribed → ∀ handler ∈ m.made[subscription]?, m.live handler = 0
  | _ => True

instance (m : MultiSocketNetwork) (e : MultiEvent) : Decidable (Once m e) := by
  unfold Once
  split <;> infer_instance

/-! ## What holds in every run -/

variable {m m' : MultiSocketNetwork} {e : MultiEvent}

/-- Every inner network has the closures of the subscriptions that were not ended. -/
structure Wired (m : MultiSocketNetwork) : Prop where
  several : 2 ≤ m.networks.length
  closures : ∀ l ∈ m.networks, l = m.standing.map fun n => ⟨n, m.made[n]?.getD 0⟩
  past : ∀ n ∈ m.unsubscribed, n < m.made.length

theorem mem_standing {n : Nat} : n ∈ m.standing ↔ n < m.made.length ∧ n ∉ m.unsubscribed := by
  simp [standing]

theorem standing_nodup (m : MultiSocketNetwork) : m.standing.Nodup :=
  List.nodup_range.filter _

theorem standing_onError (h : Wired m) (handler : Nat) :
    (m.onError handler).standing = m.standing ++ [m.made.length] := by
  have new : m.made.length ∉ m.unsubscribed := fun mem => absurd (h.past _ mem) (lt_irrefl _)
  have kept : (m.onError handler).made.length = m.made.length + 1 := List.length_append
  rw [standing, standing, kept, List.range_succ, List.filter_append]
  congr 1
  exact List.filter_eq_self.mpr fun n hn => by
    rw [List.mem_singleton.mp hn]
    exact decide_eq_true new

theorem standing_unsubscribe (m : MultiSocketNetwork) (subscription handler : Nat) :
    (m.unsubscribe subscription handler).standing = m.standing.erase subscription := by
  rw [(standing_nodup m).erase_eq_filter, standing, standing, List.filter_filter]
  apply List.filter_congr
  intro n _
  by_cases same : n = subscription <;> simp [MultiSocketNetwork.unsubscribe, same]

/-- The handler of an older subscription. -/
theorem made_onError (handler : Nat) {n : Nat} (old : n < m.made.length) :
    (m.onError handler).made[n]? = m.made[n]? :=
  List.getElem?_append_left old

theorem Wired.onError (h : Wired m) (handler : Nat) : Wired (m.onError handler) := by
  refine ⟨?_, fun l hl => ?_, fun n hn => ?_⟩
  · simpa [MultiSocketNetwork.onError] using h.several
  · obtain ⟨l, old, rfl⟩ := List.mem_map.mp hl
    rw [standing_onError h, List.map_append, h.closures l old]
    congr 1
    · apply List.map_congr_left
      intro n hn
      rw [made_onError handler (mem_standing.mp hn).1]
    · simp [MultiSocketNetwork.onError]
  · have := h.past n hn
    simp only [MultiSocketNetwork.onError, List.length_append, List.length_singleton]
    omega

theorem Wired.unsubscribe (h : Wired m) {subscription handler : Nat}
    (known : m.made[subscription]? = some handler) :
    Wired (m.unsubscribe subscription handler) := by
  refine ⟨?_, fun l hl => ?_, fun n hn => ?_⟩
  · simpa [MultiSocketNetwork.unsubscribe] using h.several
  · obtain ⟨l, old, rfl⟩ := List.mem_map.mp hl
    rw [standing_unsubscribe, (standing_nodup m).erase_eq_filter, h.closures l old, List.filter_map]
    apply congrArg
    apply List.filter_congr
    intro n _
    by_cases same : n = subscription <;> simp [same]
  · rcases List.mem_cons.mp hn with rfl | old
    · exact (List.getElem?_eq_some_iff.mp known).1
    · exact h.past n old

theorem Wired.step (h : Wired m) (hstep : m.step e = some m') : Wired m' := by
  cases e with
  | onError handler =>
    obtain rfl := Option.some.inj hstep
    exact h.onError handler
  | unsubscribe subscription =>
    obtain ⟨handler, known, rfl⟩ := Option.map_eq_some_iff.mp hstep
    exact h.unsubscribe known

theorem wired_create {count : Nat} (created : createMultiSocketNetwork count = .ok m) :
    Wired m ∧ m.errorHandlers = [] ∧ m.made = [] := by
  unfold createMultiSocketNetwork at created
  split at created
  · cases created
  · rename_i enough
    cases created
    refine ⟨⟨?_, fun l hl => ?_, fun _ hn => (nomatch hn)⟩, rfl, rfl⟩
    · rw [List.length_replicate]
      omega
    · rw [List.eq_of_mem_replicate hl]
      rfl

/-! ## How often a handler is called -/

theorem calls_delegate (h : Wired m) {index : Nat} (bound : index < m.networks.length)
    (handler : Nat) (error scope : JSString) :
    calls handler (m.delegate index error scope) = m.live handler := by
  have own := h.closures _ (List.getElem_mem bound)
  rw [delegate, List.getElem?_eq_getElem bound, Option.getD_some, own, calls, live, List.countP_map,
    List.countP_map]
  apply List.countP_congr
  intro n hn
  have known := List.getElem?_eq_getElem (mem_standing.mp hn).1
  simp [known]

theorem trySend_index (m : MultiSocketNetwork) (index : Nat) (failure : Option JSString) :
    ∀ c ∈ m.trySend index failure, c.context.index = index := by
  intro c hc
  cases failure with
  | none => cases hc
  | some error =>
    obtain ⟨handler, -, rfl⟩ := List.mem_map.mp hc
    rfl

theorem flatMap_single {α : Type} (f : Nat → List α) (index count : Nat) :
    ((List.range count).flatMap fun i => if i = index then f i else []) =
      if index < count then f index else [] := by
  induction count with
  | zero => rfl
  | succ count ih =>
    rw [List.range_succ, List.flatMap_append, ih]
    by_cases last : count = index
    · subst last
      simp
    · have : index < count + 1 ↔ index < count := by omega
      simp [last, this]

/-- Of what `sendAll` reports, the calls for one network. -/
theorem sendAll_filter (m : MultiSocketNetwork) (failures : Nat → Option JSString) {index : Nat}
    (bound : index < m.networks.length) :
    (m.sendAll failures).filter (·.context.index = index) = m.trySend index (failures index) := by
  have apart : ∀ i, (m.trySend i (failures i)).filter (·.context.index = index) =
      if i = index then m.trySend i (failures i) else [] := by
    intro i
    split
    · rename_i same
      rw [List.filter_eq_self]
      intro c hc
      simp [trySend_index m i _ c hc, same]
    · rename_i other
      rw [List.filter_eq_nil_iff]
      intro c hc
      simp [trySend_index m i _ c hc, other]
  rw [sendAll, List.filter_flatMap]
  simp only [apart]
  rw [flatMap_single (fun i => m.trySend i (failures i)), if_pos bound]

theorem agree_iff (h : Wired m) :
    m.Agree ↔ ∀ handler, m.errorHandlers.count handler = m.live handler := by
  have sent : ∀ index < m.networks.length, ∀ handler failures thrown,
      failures index = some thrown →
        calls handler ((m.sendAll failures).filter (·.context.index = index)) =
          m.errorHandlers.count handler := by
    intro index bound handler failures thrown fails
    rw [sendAll_filter m failures bound, fails, trySend, calls, List.countP_map, List.count]
    apply List.countP_congr
    intro n _
    simp
  constructor
  · intro agree handler
    have first : 0 < m.networks.length := by
      have := h.several
      omega
    have both := agree 0 first handler [] [] (fun _ => some []) [] rfl
    exact (sent 0 first handler (fun _ => some []) [] rfl).symm.trans both.2
  · intro counts index bound handler error scope failures thrown fails
    refine ⟨calls_delegate h bound handler error scope, ?_⟩
    rw [sent index bound handler failures thrown fails]
    exact counts handler

/-! ## One step -/

theorem live_onError (h : Wired m) (added handler : Nat) :
    (m.onError added).live handler = m.live handler + if added = handler then 1 else 0 := by
  rw [live, standing_onError h, List.countP_append, live]
  congr 1
  · apply List.countP_congr
    intro n hn
    rw [made_onError added (mem_standing.mp hn).1]
  · simp [MultiSocketNetwork.onError, List.countP_cons]

theorem live_unsubscribe {subscription ended : Nat} (known : m.made[subscription]? = some ended)
    (handler : Nat) :
    (m.unsubscribe subscription ended).live handler =
      m.live handler - if subscription ∉ m.unsubscribed ∧ ended = handler then 1 else 0 := by
  have bound := (List.getElem?_eq_some_iff.mp known).1
  have gone : (m.unsubscribe subscription ended).live handler =
      (m.standing.erase subscription).countP fun n => m.made[n]? = some handler := by
    rw [live, standing_unsubscribe]
    rfl
  rw [gone, List.countP_erase, live]
  simp only [mem_standing, bound, true_and, known, Option.some.injEq, decide_eq_true_eq]

/-- An unsubscription takes one subscription of its handler away, on both paths, unless
it is repeated. -/
theorem counts_unsubscribe {subscription ended : Nat}
    (counts : ∀ handler, m.errorHandlers.count handler = m.live handler)
    (known : m.made[subscription]? = some ended) :
    (∀ handler, (m.unsubscribe subscription ended).errorHandlers.count handler =
      (m.unsubscribe subscription ended).live handler) ↔
        (subscription ∈ m.unsubscribed → m.live ended = 0) := by
  have array : ∀ handler, (m.unsubscribe subscription ended).errorHandlers.count handler =
      m.live handler - if ended = handler then 1 else 0 := by
    intro handler
    rw [MultiSocketNetwork.unsubscribe, List.count_erase, counts]
    simp [beq_iff_eq]
  simp only [array, live_unsubscribe known]
  constructor
  · intro same again
    have := same ended
    simp only [again, not_true_eq_false, false_and, if_true, if_false] at this
    omega
  · intro once handler
    by_cases own : ended = handler
    · subst own
      by_cases again : subscription ∈ m.unsubscribed
      · simp [once again]
      · simp [again]
    · simp [own]

/-- **Exactly the good steps keep the two paths in agreement.** -/
theorem agree_step (h : Wired m) (agree : m.Agree) (hstep : m.step e = some m') :
    m'.Agree ↔ Once m e := by
  have next := h.step hstep
  have counts := (agree_iff h).mp agree
  rw [agree_iff next]
  cases e with
  | onError added =>
    obtain rfl := Option.some.inj hstep
    refine iff_of_true (fun handler => ?_) trivial
    rw [live_onError h, MultiSocketNetwork.onError, List.count_append, counts]
    simp [List.count_singleton]
  | unsubscribe subscription =>
    obtain ⟨ended, known, rfl⟩ := Option.map_eq_some_iff.mp hstep
    rw [counts_unsubscribe counts known]
    simp [Once, known]

/-- **When the two error paths agree.** All along a run each handler is called for an
error of an inner network and for a failure of `sendAll` on it as often as it is
subscribed, exactly if no unsubscribe function is called again while its handler has
another subscription. -/
theorem error_paths_agree {count : Nat} {m₀ : MultiSocketNetwork} {es : List MultiEvent}
    (created : createMultiSocketNetwork count = .ok m₀) (run : exec step m₀ es = some m) :
    (∀ pre u, pre <+: es → exec step m₀ pre = some u → u.Agree) ↔ Run step Once m₀ es m := by
  obtain ⟨wired, handlers, made⟩ := wired_create created
  have agree : m₀.Agree := by
    rw [agree_iff wired]
    intro handler
    rw [handlers, live, standing, made]
    rfl
  have judged : ∀ m e m', Wired m → m.Agree → step m e = some m' →
      Wired m' ∧ (m'.Agree ↔ Once m e) :=
    fun _ _ _ h held hstep => ⟨h.step hstep, agree_step h held hstep⟩
  exact exec_judged_iff judged wired agree run

/-- One handler subscribed twice and ended twice, and once more. -/
theorem error_paths_agree_twice :
    ∃ m₀ m, createMultiSocketNetwork 2 = .ok m₀ ∧
      exec step m₀ [.onError 5, .onError 5, .unsubscribe 0, .unsubscribe 1, .unsubscribe 0] =
        some m ∧ m.Agree := by
  obtain ⟨m, run⟩ := Run.of_allGood step Once ⟨[[], []], [], [], []⟩
    [.onError 5, .onError 5, .unsubscribe 0, .unsubscribe 1, .unsubscribe 0] (by decide)
  have created : createMultiSocketNetwork 2 = .ok ⟨[[], []], [], [], []⟩ := rfl
  exact ⟨_, m, created, run.exec_eq,
    (error_paths_agree created run.exec_eq).mpr run _ m List.prefix_rfl run.exec_eq⟩

/-- Of two subscriptions of a handler one is ended twice: a failed send no longer
reaches it. -/
theorem ended_twice_silences_the_other :
    ∃ m₀ m, createMultiSocketNetwork 2 = .ok m₀ ∧
      exec step m₀ [.onError 5, .onError 5, .unsubscribe 0, .unsubscribe 0] = some m ∧
      calls 5 (m.delegate 0 (lit "e") (lit "s")) = 1 ∧
      calls 5 ((m.sendAll fun _ => some (lit "e")).filter (·.context.index = 0)) = 0 ∧
      ¬ m.Agree := by
  refine ⟨_, _, rfl, rfl, by decide, by decide, fun agree => ?_⟩
  have both := agree 0 (by decide) 5 [] [] (fun _ => some []) [] rfl
  revert both
  decide

end MultiSocketNetwork

end LemonModel
