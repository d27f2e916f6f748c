import LemonModel.Sync.Client

/-!
# Every request is settled

A request that was accepted is settled, pending, or its timeout is telling the error
listeners. `requests_settle_once`: in a run in which no error listener throws out of
that, a timer that fired and a client that is closed leave nothing unsettled.
-/

namespace LemonModel.SocketClient

open Text

variable {s s' : SocketClient} {mid : JSString}

/-- The timeout of the request is telling the error listeners. -/
def Noticed (s : SocketClient) (mid : JSString) : Prop :=
  ∃ n, s.notice = some n ∧ n.timer.mid = mid

/-- The pending requests and their timers. -/
structure Awaited (pending : Dict JSString PendingRequest) (timers : List RequestTimer)
    (closed : Bool) (maxPending : Option Nat) : Prop where
  timed : ∀ t ∈ timers, pending.has t.mid = true
  armed : ∀ mid p, pending.get? mid = some p → p.timer = true → ∃ t ∈ timers, t.mid = mid
  ended : closed = true → pending = .empty
  limit : ∀ max, maxPending = some max → pending.size ≤ max

/-- Replies reach no listener. -/
structure Quiet (dispatches : List Dispatch) (heard : List (Nat × ClientMessage)) : Prop where
  dispatched : ∀ d ∈ dispatches, d.message.isReply = false
  told : ∀ h ∈ heard, h.2.isReply = false

structure Sound (s : SocketClient) : Prop where
  nodup : s.accepted.Nodup
  settledAccepted : ∀ mid, s.settled.has mid = true → mid ∈ s.accepted
  pendingAccepted : ∀ mid, s.pending.has mid = true → mid ∈ s.accepted
  noticedAccepted : ∀ mid, s.Noticed mid → mid ∈ s.accepted ∧ s.pending.has mid = false
  sendingAccepted : ∀ mid ∈ s.sending, mid ∈ s.accepted ∧ ¬ s.Noticed mid
  firedAccepted : ∀ mid ∈ s.fired, mid ∈ s.accepted ∧ s.pending.has mid = false
  outstanding : ∀ mid ∈ s.accepted,
    s.settled.has mid = false ↔ s.pending.has mid = true ∨ s.Noticed mid
  awaited : Awaited s.pending s.timers s.closed s.maxPending
  quiet : Quiet s.dispatches s.heard

theorem sound_create (timeoutMs : Decimal) (maxPending : Option Nat) :
    (create timeoutMs maxPending).Sound where
  nodup := List.nodup_nil
  settledAccepted _ h := nomatch h
  pendingAccepted _ h := nomatch h
  noticedAccepted _ h := nomatch h.choose_spec.1
  sendingAccepted _ h := nomatch h
  firedAccepted _ h := nomatch h
  outstanding _ h := nomatch h
  awaited := ⟨fun _ h => (nomatch h), fun _ _ h => (nomatch h), fun _ => rfl,
    fun _ _ => Nat.zero_le _⟩
  quiet := ⟨fun _ h => (nomatch h), fun _ h => (nomatch h)⟩

/-! ## Taking out and settling -/

/-- An entry is taken out of `pending`, and its timer with it. -/
def take (s : SocketClient) (mid : JSString) : SocketClient :=
  { s with pending := s.pending.delete mid }.clearTimeout mid

theorem take_has {m : JSString} :
    (s.take mid).pending.has m = true ↔ m ≠ mid ∧ s.pending.has m = true := by
  simp [take, clearTimeout, Dict.has_delete]

theorem take_gone {m : JSString} (h : s.pending.has m = false) :
    (s.take mid).pending.has m = false := by
  simp [take, clearTimeout, Dict.has_delete, h]

theorem take_self : (s.take mid).pending.has mid = false := by
  simp [take, clearTimeout, Dict.has_delete]

theorem awaited_take (awaited : Awaited s.pending s.timers s.closed s.maxPending) :
    Awaited (s.take mid).pending (s.take mid).timers s.closed s.maxPending := by
  constructor
  · intro t ht
    obtain ⟨ht, other⟩ := List.mem_filter.mp ht
    exact take_has.mpr ⟨of_decide_eq_true other, awaited.timed t ht⟩
  · intro m p hp timed
    change (s.pending.delete mid).get? m = some p at hp
    have other : m ≠ mid := by
      rintro rfl
      rw [Dict.get?_delete_self] at hp
      cases hp
    rw [Dict.get?_delete_ne _ other] at hp
    obtain ⟨t, ht, rfl⟩ := awaited.armed m p hp timed
    exact ⟨t, List.mem_filter.mpr ⟨ht, decide_eq_true other⟩, rfl⟩
  · intro closed
    show s.pending.delete mid = .empty
    rw [awaited.ended closed]
    rfl
  · exact fun max h => (Dict.size_delete_le _ _).trans (awaited.limit max h)

/-- Settling changes only what is settled, and nothing that is. -/
theorem settle_eq (s : SocketClient) (mid : JSString) (how : RequestSettlement) :
    ∃ settled, s.settle mid how = { s with settled := settled } ∧
      (∀ m, settled.has m = (decide (m = mid) || s.settled.has m)) ∧
      ∀ m h, s.settled.get? m = some h → settled.get? m = some h := by
  unfold settle
  split
  · rename_i done
    refine ⟨s.settled, rfl, fun m => ?_, fun m h hm => hm⟩
    by_cases hm : m = mid
    · rw [hm, done, Bool.or_true]
    · rw [decide_eq_false hm, Bool.false_or]
  · rename_i undone
    refine ⟨_, rfl, fun m => Dict.has_set .., fun m h hm => ?_⟩
    have apart : m ≠ mid := by
      rintro rfl
      exact undone (Dict.has_iff.mpr ⟨h, hm⟩)
    rw [Dict.get?_set_ne _ _ apart, hm]

theorem sound_finish (sound : s.Sound) (accepted : mid ∈ s.accepted) (apart : ¬ s.Noticed mid)
    (how : RequestSettlement) : (s.finish mid how).Sound := by
  obtain ⟨settled, eq, has, -⟩ := settle_eq (s.take mid) mid how
  change s.finish mid how = _ at eq
  rw [eq]
  constructor
  case nodup => exact sound.nodup
  case settledAccepted =>
    intro m hm
    rw [has, Bool.or_eq_true, decide_eq_true_iff] at hm
    rcases hm with rfl | hm
    · exact accepted
    · exact sound.settledAccepted m hm
  case pendingAccepted => exact fun m hm => sound.pendingAccepted m (take_has.mp hm).2
  case noticedAccepted =>
    exact fun m hm => ⟨(sound.noticedAccepted m hm).1, take_gone (sound.noticedAccepted m hm).2⟩
  case sendingAccepted => exact sound.sendingAccepted
  case firedAccepted =>
    exact fun m hm => ⟨(sound.firedAccepted m hm).1, take_gone (sound.firedAccepted m hm).2⟩
  case outstanding =>
    intro m hm
    show settled.has m = false ↔ (s.take mid).pending.has m = true ∨ s.Noticed m
    rw [has, Bool.or_eq_false_iff, decide_eq_false_iff_not, take_has]
    by_cases same : m = mid
    · subst same
      exact ⟨fun h => absurd rfl h.1, fun h => h.elim (fun h => absurd rfl h.1) (absurd · apart)⟩
    · have before : s.settled.has m = false ↔ _ := sound.outstanding m hm
      change ¬ m = mid ∧ s.settled.has m = false ↔ _
      rw [before]
      tauto
  case awaited => exact awaited_take sound.awaited
  case quiet => exact sound.quiet

/-! ## Requests -/

theorem sound_accept {type : JSString} {data : JSValue} {timeoutMs : Decimal} (sound : s.Sound)
    (isNew : mid ∉ s.accepted) (isOpen : s.closed = false)
    (room : ∀ max, s.maxPending = some max → s.pending.size < max) :
    (s.accept type data timeoutMs mid).Sound := by
  have has {m : JSString} : (s.accept type data timeoutMs mid).pending.has m = true ↔
      m = mid ∨ s.pending.has m = true := by simp [accept, Dict.has_set]
  have other {m : JSString} (hm : m ∈ s.accepted) : m ≠ mid := by
    rintro rfl
    exact isNew hm
  have away {m : JSString} (hm : m ∈ s.accepted) (out : s.pending.has m = false) :
      (s.accept type data timeoutMs mid).pending.has m = false := by
    simp [accept, Dict.has_set, out, other hm]
  constructor
  case nodup => exact List.nodup_cons.mpr ⟨isNew, sound.nodup⟩
  case settledAccepted => exact fun m hm => List.mem_cons_of_mem _ (sound.settledAccepted m hm)
  case pendingAccepted =>
    intro m hm
    rcases has.mp hm with rfl | hm
    · exact List.mem_cons_self ..
    · exact List.mem_cons_of_mem _ (sound.pendingAccepted m hm)
  case noticedAccepted =>
    intro m hm
    obtain ⟨hm, out⟩ := sound.noticedAccepted m hm
    exact ⟨List.mem_cons_of_mem _ hm, away hm out⟩
  case sendingAccepted =>
    intro m hm
    rcases List.mem_cons.mp hm with rfl | hm
    · exact ⟨List.mem_cons_self .., fun h => isNew (sound.noticedAccepted m h).1⟩
    · exact ⟨List.mem_cons_of_mem _ (sound.sendingAccepted m hm).1,
        (sound.sendingAccepted m hm).2⟩
  case firedAccepted =>
    intro m hm
    obtain ⟨hm, out⟩ := sound.firedAccepted m hm
    exact ⟨List.mem_cons_of_mem _ hm, away hm out⟩
  case outstanding =>
    intro m hm
    show s.settled.has m = false ↔ _ ∨ s.Noticed m
    rw [has]
    rcases List.mem_cons.mp hm with rfl | hm
    · refine ⟨fun _ => .inl (.inl rfl), fun _ => ?_⟩
      cases done : s.settled.has m with
      | false => rfl
      | true => exact absurd (sound.settledAccepted m done) isNew
    · rw [sound.outstanding m hm]
      have := other hm
      tauto
  case awaited =>
    constructor
    · intro t ht
      rw [has]
      simp only [accept] at ht
      split at ht
      · rcases List.mem_cons.mp ht with rfl | ht
        · exact .inl rfl
        · exact .inr (sound.awaited.timed t ht)
      · exact .inr (sound.awaited.timed t ht)
    · intro m p hp timed
      by_cases same : m = mid
      · subst same
        simp only [accept, Dict.get?_set_self, Option.some.injEq] at hp
        subst hp
        refine ⟨⟨type, m, timeoutMs⟩, ?_, rfl⟩
        simp only [accept, if_pos timed]
        exact List.mem_cons_self ..
      · simp only [accept, Dict.get?_set_ne _ _ same] at hp
        obtain ⟨t, ht, rfl⟩ := sound.awaited.armed m p hp timed
        refine ⟨t, ?_, rfl⟩
        simp only [accept]
        split
        · exact List.mem_cons_of_mem _ ht
        · exact ht
    · intro closed
      change s.closed = true at closed
      rw [isOpen] at closed
      cases closed
    · intro max hmax
      exact (Dict.size_set_le ..).trans (room max hmax)
  case quiet => exact sound.quiet

theorem sound_request {type : JSString} {data : JSValue} {timeoutMs : Option Decimal}
    (sound : s.Sound) (isNew : mid ∉ s.accepted) : (s.request type data timeoutMs mid).Sound := by
  have refused (r : List JSString) : Sound { s with refused := r } :=
    { sound with }
  unfold request
  split
  · exact refused _
  · rename_i isOpen
    split
    · rename_i limit hlimit
      split
      · exact refused _
      · rename_i room
        refine sound_accept sound isNew (by simpa using isOpen) fun max hmax => ?_
        rw [hlimit] at hmax
        cases hmax
        omega
    · rename_i unlimited
      refine sound_accept sound isNew (by simpa using isOpen) fun max hmax => ?_
      rw [unlimited] at hmax
      cases hmax

theorem sound_sent {error : Option JSString} (sound : s.Sound) (sending : mid ∈ s.sending) :
    (s.sent mid error).Sound := by
  obtain ⟨accepted, apart⟩ := sound.sendingAccepted mid sending
  have returned : Sound { s with sending := s.sending.erase mid } :=
    { sound with
      sendingAccepted := fun m hm => sound.sendingAccepted m (List.mem_of_mem_erase hm) }
  unfold sent
  cases error with
  | none => exact returned
  | some e => exact sound_finish returned accepted apart _

/-! ## Timeouts -/

theorem noticed_unsettled (sound : s.Sound) (h : s.Noticed mid) : s.settled.has mid = false :=
  (sound.outstanding mid (sound.noticedAccepted mid h).1).mpr (.inr h)

theorem sound_fire {t : RequestTimer} (sound : s.Sound) (idle : s.idle = true)
    (armed : t ∈ s.timers) : (s.fire t).Sound := by
  have pending := sound.awaited.timed t armed
  have accepted := sound.pendingAccepted t.mid pending
  have alone : s.sending = [] ∧ s.notice = none := by
    simp only [SocketClient.idle, Bool.and_eq_true, List.isEmpty_iff, Option.isNone_iff_eq_none]
      at idle
    exact idle.1
  have unnoticed {m : JSString} : ¬ s.Noticed m := by
    rintro ⟨n, hn, -⟩
    rw [alone.2] at hn
    cases hn
  cases hl : s.errorListeners with
  | nil =>
    have eq : s.fire t = { s.finish t.mid (.failed (timeoutError t)) with
        fired := t.mid :: s.fired } := by
      simp only [fire, hl, finish, settle, clearTimeout]
      split <;> rfl
    have done := sound_finish sound accepted unnoticed (.failed (timeoutError t))
    obtain ⟨settled, same, -⟩ := settle_eq (s.take t.mid) t.mid (.failed (timeoutError t))
    change s.finish t.mid _ = _ at same
    rw [eq]
    rw [same] at done ⊢
    exact { done with
      firedAccepted := by
        intro m hm
        rcases List.mem_cons.mp hm with rfl | hm
        · exact ⟨accepted, take_self⟩
        · exact done.firedAccepted m hm }
  | cons l ls =>
    have eq : s.fire t = { s.take t.mid with
        fired := t.mid :: s.fired, notice := some ⟨t, l :: ls⟩ } := by
      simp only [fire, hl, take, clearTimeout]
    have noticed {m : JSString} : Noticed { s.take t.mid with
        fired := t.mid :: s.fired, notice := some ⟨t, l :: ls⟩ } m ↔ t.mid = m := by
      simp [Noticed]
    rw [eq]
    constructor
    case nodup => exact sound.nodup
    case settledAccepted => exact sound.settledAccepted
    case pendingAccepted => exact fun m hm => sound.pendingAccepted m (take_has.mp hm).2
    case noticedAccepted =>
      intro m hm
      obtain rfl := noticed.mp hm
      exact ⟨accepted, take_self⟩
    case sendingAccepted =>
      intro m hm
      change m ∈ s.sending at hm
      rw [alone.1] at hm
      cases hm
    case firedAccepted =>
      intro m hm
      rcases List.mem_cons.mp hm with rfl | hm
      · exact ⟨accepted, take_self⟩
      · exact ⟨(sound.firedAccepted m hm).1, take_gone (sound.firedAccepted m hm).2⟩
    case outstanding =>
      intro m hm
      have before : s.settled.has m = false ↔ _ := sound.outstanding m hm
      show s.settled.has m = false ↔ (s.take t.mid).pending.has m = true ∨ _
      rw [before, noticed, take_has]
      by_cases same : m = t.mid
      · subst same
        exact ⟨fun _ => .inr rfl, fun _ => .inl pending⟩
      · have := unnoticed (m := m)
        tauto
    case awaited => exact awaited_take sound.awaited
    case quiet => exact sound.quiet

theorem sound_told {n : TimeoutNotice} (sound : s.Sound) (hn : s.notice = some n) :
    (s.told n true).Sound := by
  have noticed : s.Noticed n.timer.mid := ⟨n, hn, rfl⟩
  have only {m : JSString} (hm : s.Noticed m) : m = n.timer.mid := by
    obtain ⟨n', hn', rfl⟩ := hm
    rw [hn] at hn'
    cases hn'
    rfl
  obtain ⟨accepted, out⟩ := sound.noticedAccepted _ noticed
  unfold told
  rw [if_pos rfl]
  split
  · obtain ⟨settled, eq, has, -⟩ := settle_eq { s with notice := none } n.timer.mid
      (.failed (timeoutError n.timer))
    rw [eq]
    have unnoticed {m : JSString} : ¬ Noticed { s with notice := none, settled := settled } m := by
      rintro ⟨n', hn', -⟩
      cases hn'
    constructor
    case nodup => exact sound.nodup
    case settledAccepted =>
      intro m hm
      rw [has, Bool.or_eq_true, decide_eq_true_iff] at hm
      rcases hm with rfl | hm
      · exact accepted
      · exact sound.settledAccepted m hm
    case pendingAccepted => exact sound.pendingAccepted
    case noticedAccepted => exact fun m hm => absurd hm unnoticed
    case sendingAccepted => exact fun m hm => ⟨(sound.sendingAccepted m hm).1, unnoticed⟩
    case firedAccepted => exact sound.firedAccepted
    case outstanding =>
      intro m hm
      show settled.has m = false ↔ s.pending.has m = true ∨ _
      rw [has, Bool.or_eq_false_iff, decide_eq_false_iff_not]
      have before : s.settled.has m = false ↔ _ := sound.outstanding m hm
      change ¬ m = n.timer.mid ∧ s.settled.has m = false ↔ _
      rw [before]
      constructor
      · rintro ⟨other, pending | again⟩
        · exact .inl pending
        · exact absurd (only again) other
      · rintro (pending | again)
        · refine ⟨?_, .inl pending⟩
          rintro rfl
          rw [out] at pending
          cases pending
        · exact absurd again unnoticed
    case awaited => exact sound.awaited
    case quiet => exact sound.quiet
  · rename_i rest _
    have same {m : JSString} {ls : List Nat} :
        Noticed { s with notice := some { n with listeners := ls } } m ↔ s.Noticed m := by
      simp [Noticed, hn]
    exact { sound with
      noticedAccepted := fun m hm => sound.noticedAccepted m (same.mp hm)
      sendingAccepted := fun m hm =>
        ⟨(sound.sendingAccepted m hm).1, fun h => (sound.sendingAccepted m hm).2 (same.mp h)⟩
      outstanding := fun m hm => (sound.outstanding m hm).trans (or_congr_right same.symm) }

/-! ## Messages -/

theorem sound_dispatches {dispatches : List Dispatch} {heard : List (Nat × ClientMessage)}
    (sound : s.Sound) (quiet : Quiet dispatches heard) :
    Sound { s with dispatches := dispatches, heard := heard } :=
  { sound with quiet := quiet }

theorem sound_dispatch {d : Dispatch} (sound : s.Sound) (hd : d.message.isReply = false) :
    (s.dispatch d).Sound := by
  unfold dispatch
  split
  · exact sound
  · refine sound_dispatches sound ⟨fun d' hd' => ?_, sound.quiet.told⟩
    rcases List.mem_cons.mp hd' with rfl | hd'
    · exact hd
    · exact sound.quiet.dispatched d' hd'

theorem sound_dispatchMessage {message : ClientMessage} (listeners : List Nat) (sound : s.Sound)
    (hm : message.isReply = false) : (s.dispatchMessage message listeners).Sound := by
  cases listeners with
  | nil => exact sound_dispatch (d := ⟨message, _, true⟩) sound hm
  | cons l ls => exact sound_dispatch (d := ⟨message, l :: ls, false⟩) sound hm

theorem sound_receive {raw : JSString} (sound : s.Sound) : (s.receive raw).Sound := by
  unfold receive
  split
  · exact sound
  · split
    · split
      · exact sound
      · split
        · rename_i mid _ pending
          refine sound_finish sound (sound.pendingAccepted mid pending) (fun noticed => ?_) _
          rw [(sound.noticedAccepted mid noticed).2] at pending
          cases pending
        · exact sound
    · rename_i other
      exact sound_dispatchMessage _ sound (by simpa using other)

theorem sound_delivered {i : Nat} {d : Dispatch} {ok : Bool} (sound : s.Sound)
    (hd : s.dispatches[i]? = some d) : (s.delivered i d ok).Sound := by
  have other := sound.quiet.dispatched d (List.mem_of_getElem? hd)
  have returned : Sound { s with
      dispatches := s.dispatches.eraseIdx i
      heard := (d.listeners.head?.toList.map fun l => (l, d.message)) ++ s.heard } :=
    sound_dispatches sound
    ⟨fun d' hd' => sound.quiet.dispatched d' (List.mem_of_mem_eraseIdx hd'), fun h hh => by
      rcases List.mem_append.mp hh with hh | hh
      · obtain ⟨l, -, rfl⟩ := List.mem_map.mp hh
        exact other
      · exact sound.quiet.told h hh⟩
  unfold delivered
  simp only
  split
  · split
    · exact sound_dispatch returned other
    · exact sound_dispatchMessage _ returned other
  · exact returned

/-! ## Close -/

/-- The loop of `close`. -/
theorem settleAll_eq (mids : List JSString) (s : SocketClient) :
    ∃ settled timers,
      mids.foldl (fun s mid => (s.clearTimeout mid).settle mid (.failed (closeError mid))) s =
        { s with settled := settled, timers := timers } ∧
      (∀ m, settled.has m = (decide (m ∈ mids) || s.settled.has m)) ∧
      (∀ t ∈ timers, t ∈ s.timers ∧ t.mid ∉ mids) ∧
      ∀ m h, s.settled.get? m = some h → settled.get? m = some h := by
  induction mids generalizing s with
  | nil => exact ⟨s.settled, s.timers, rfl, fun m => rfl, fun t ht => ⟨ht, List.not_mem_nil⟩,
      fun m h hm => hm⟩
  | cons mid mids ih =>
    obtain ⟨settled₁, eq₁, has₁, kept₁⟩ :=
      settle_eq (s.clearTimeout mid) mid (.failed (closeError mid))
    obtain ⟨settled, timers, eq, has, old, kept⟩ := ih ({ s.clearTimeout mid with settled := settled₁ })
    refine ⟨settled, timers, ?_, fun m => ?_, fun t ht => ?_, fun m h hm => ?_⟩
    · rw [List.foldl_cons, eq₁, eq]
      rfl
    · rw [has]
      show (_ || settled₁.has m) = _
      rw [has₁]
      show (_ || (_ || s.settled.has m)) = _
      by_cases same : m = mid <;> simp [same]
    · obtain ⟨ht, out⟩ := old t ht
      obtain ⟨ht, other⟩ := List.mem_filter.mp ht
      exact ⟨ht, List.not_mem_cons_of_ne_of_not_mem (of_decide_eq_true other) out⟩
    · exact kept m h (kept₁ m h hm)

theorem sound_close (sound : s.Sound) : s.close.Sound := by
  unfold close
  split
  · exact sound
  · obtain ⟨settled, timers, eq, has, old, -⟩ := settleAll_eq s.pending.keys { s with closed := true }
    simp only [eq]
    constructor
    case nodup => exact sound.nodup
    case settledAccepted =>
      intro m hm
      rw [has, Bool.or_eq_true, decide_eq_true_iff, Dict.mem_keys_iff_has] at hm
      rcases hm with hm | hm
      · exact sound.pendingAccepted m hm
      · exact sound.settledAccepted m hm
    case pendingAccepted => exact fun m hm => nomatch hm
    case noticedAccepted => exact fun m hm => ⟨(sound.noticedAccepted m hm).1, rfl⟩
    case sendingAccepted => exact sound.sendingAccepted
    case firedAccepted => exact fun m hm => ⟨(sound.firedAccepted m hm).1, rfl⟩
    case outstanding =>
      intro m hm
      show settled.has m = false ↔ false = true ∨ s.Noticed m
      rw [has, Bool.or_eq_false_iff, decide_eq_false_iff_not, Dict.mem_keys_iff_has]
      have before : s.settled.has m = false ↔ _ := sound.outstanding m hm
      change ¬ s.pending.has m = true ∧ s.settled.has m = false ↔ _
      rw [before]
      constructor
      · rintro ⟨out, pending | noticed⟩
        · exact absurd pending out
        · exact .inr noticed
      · rintro (never | noticed)
        · cases never
        · refine ⟨?_, .inr noticed⟩
          rw [(sound.noticedAccepted m noticed).2]
          exact Bool.false_ne_true
    case awaited =>
      refine ⟨fun t ht => ?_, fun _ _ h => (nomatch h), fun _ => rfl, fun _ _ => Nat.zero_le _⟩
      obtain ⟨ht, out⟩ := old t ht
      rw [Dict.mem_keys_iff_has] at out
      exact absurd (sound.awaited.timed t ht) out
    case quiet => exact sound.quiet

/-! ## Runs -/

/-- No error listener throws that is told of a timeout. -/
def TellsAll (_ : SocketClient) : ClientEvent → Prop
  | .told false => False
  | _ => True

instance (s : SocketClient) (e : ClientEvent) : Decidable (TellsAll s e) :=
  match e with
  | .told false => isFalse id
  | .told true | .request _ _ _ _ | .sent _ _ | .receive _ | .delivered _ _ | .fire _
  | .onMessage _ | .offMessage _ | .onType _ _ | .offType _ _ | .onError _ | .offError _
  | .close => isTrue trivial

theorem sound_step {e : ClientEvent} (sound : s.Sound) (good : TellsAll s e)
    (hstep : s.step e = some s') : s'.Sound := by
  cases e with
  | request type data timeoutMs mid =>
    simp only [step] at hstep
    split at hstep
    · cases hstep
    · rename_i isNew
      obtain rfl := Option.some.inj hstep
      exact sound_request sound isNew
  | sent mid error =>
    simp only [step] at hstep
    split at hstep
    · rename_i sending
      obtain rfl := Option.some.inj hstep
      exact sound_sent sound sending
    · cases hstep
  | receive raw =>
    obtain rfl := Option.some.inj hstep
    exact sound_receive sound
  | delivered i ok =>
    obtain ⟨d, hd, rfl⟩ := Option.map_eq_some_iff.mp hstep
    exact sound_delivered sound hd
  | fire t =>
    simp only [step] at hstep
    split at hstep
    · rename_i h
      obtain rfl := Option.some.inj hstep
      exact sound_fire sound h.1 h.2
    · cases hstep
  | told ok =>
    obtain ⟨n, hn, rfl⟩ := Option.map_eq_some_iff.mp hstep
    cases ok with
    | false => exact good.elim
    | true => exact sound_told sound hn
  | onMessage _ | offMessage _ | onType _ _ | offType _ _ | onError _ | offError _ =>
    obtain rfl := Option.some.inj hstep
    exact { sound with }
  | close =>
    obtain rfl := Option.some.inj hstep
    exact sound_close sound

/-- What is settled stays as it is. -/
def Keeps (s s' : SocketClient) : Prop :=
  ∀ mid how, s.settled.get? mid = some how → s'.settled.get? mid = some how

theorem keeps_settle (s : SocketClient) (mid : JSString) (how : RequestSettlement) :
    Keeps s (s.settle mid how) := by
  obtain ⟨settled, eq, -, kept⟩ := settle_eq s mid how
  rw [eq]
  exact kept

theorem keeps_dispatchMessage (s : SocketClient) (message : ClientMessage) (listeners : List Nat) :
    Keeps s (s.dispatchMessage message listeners) := by
  have kept (d : Dispatch) : Keeps s (s.dispatch d) := by
    unfold dispatch
    split <;> exact fun _ _ h => h
  cases listeners <;> exact kept _

theorem keeps_step {e : ClientEvent} (hstep : s.step e = some s') : Keeps s s' := by
  have same {r : SocketClient} (h : r.settled = s.settled) : Keeps s r :=
    fun _ _ hm => by rw [h]; exact hm
  cases e with
  | request type data timeoutMs mid =>
    simp only [step] at hstep
    split at hstep
    · cases hstep
    · obtain rfl := Option.some.inj hstep
      apply same
      unfold request
      split
      · rfl
      · split
        · split <;> rfl
        · rfl
  | sent mid error =>
    simp only [step] at hstep
    split at hstep
    · obtain rfl := Option.some.inj hstep
      unfold sent
      cases error with
      | none => exact fun _ _ h => h
      | some e => exact keeps_settle (take { s with sending := s.sending.erase mid } mid) mid _
    · cases hstep
  | receive raw =>
    obtain rfl := Option.some.inj hstep
    unfold receive
    split
    · exact same rfl
    · split
      · split
        · exact same rfl
        · split
          · exact keeps_settle (s.take _) _ _
          · exact same rfl
      · exact keeps_dispatchMessage s _ _
  | delivered i ok =>
    obtain ⟨d, -, rfl⟩ := Option.map_eq_some_iff.mp hstep
    unfold delivered
    simp only
    split
    · split
      · unfold dispatch
        split <;> exact fun _ _ h => h
      · exact keeps_dispatchMessage { s with
          dispatches := s.dispatches.eraseIdx i
          heard := (d.listeners.head?.toList.map fun l => (l, d.message)) ++ s.heard } _ _
    · exact same rfl
  | fire t =>
    simp only [step] at hstep
    split at hstep
    · obtain rfl := Option.some.inj hstep
      unfold fire
      simp only
      split
      · exact keeps_settle { s with
          timers := s.timers.filter (·.mid ≠ t.mid)
          pending := s.pending.delete t.mid
          fired := t.mid :: s.fired } _ _
      · exact same rfl
    · cases hstep
  | told ok =>
    obtain ⟨n, -, rfl⟩ := Option.map_eq_some_iff.mp hstep
    unfold told
    split
    · split
      · exact keeps_settle { s with notice := none } _ _
      · exact same rfl
    · exact same rfl
  | onMessage _ | offMessage _ | onType _ _ | offType _ _ | onError _ | offError _ =>
    obtain rfl := Option.some.inj hstep
    exact same rfl
  | close =>
    obtain rfl := Option.some.inj hstep
    unfold close
    split
    · exact same rfl
    · obtain ⟨settled, timers, eq, -, -, kept⟩ :=
        settleAll_eq s.pending.keys { s with closed := true }
      simp only [eq]
      exact kept

/-- The requests that were accepted and are not settled. -/
def unsettled (s : SocketClient) : List JSString := s.accepted.filter fun mid => !s.settled.has mid

/-- The pending requests and the one whose timeout is telling are the unsettled. -/
theorem pendingCount_eq (sound : s.Sound) :
    s.pendingCount + s.notice.toList.length = s.unsettled.length := by
  have perm : (s.notice.toList.map (·.timer.mid) ++ s.pending.keys).Perm s.unsettled := by
    apply (List.perm_ext_iff_of_nodup ?_ (sound.nodup.filter _)).mpr
    · intro mid
      rw [List.mem_append, Dict.mem_keys_iff_has, List.mem_filter, Bool.not_eq_true']
      have noticed : mid ∈ s.notice.toList.map (·.timer.mid) ↔ s.Noticed mid := by
        simp [Noticed]
      rw [noticed]
      constructor
      · rintro (h | h)
        · exact ⟨(sound.noticedAccepted mid h).1, noticed_unsettled sound h⟩
        · have accepted := sound.pendingAccepted mid h
          exact ⟨accepted, (sound.outstanding mid accepted).mpr (.inl h)⟩
      · rintro ⟨accepted, undone⟩
        exact ((sound.outstanding mid accepted).mp undone).symm
    · rw [List.nodup_append]
      refine ⟨?_, s.pending.nodup, ?_⟩
      · cases s.notice <;> simp
      · rintro mid hm k hk rfl
        obtain ⟨n, hn, rfl⟩ := List.mem_map.mp hm
        have out := (sound.noticedAccepted _ ⟨n, by simpa using hn, rfl⟩).2
        rw [Dict.mem_keys_iff_has, out] at hk
        cases hk
  have length := perm.length_eq
  rw [List.length_append, List.length_map, Dict.length_keys] at length
  rw [pendingCount]
  omega

theorem keeps_run {es : List ClientEvent} (run : Run step TellsAll s es s') : Keeps s s' := by
  induction run with
  | nil => exact fun _ _ h => h
  | cons _ hstep _ ih =>
    intro mid how settled
    exact ih mid how (keeps_step hstep mid how settled)

/-- **Settled once.** In a run in which no error listener throws that is told of a
timeout: a timer that fired and a client that was closed leave no request unsettled,
but that whose timeout is telling; the pending requests are the unsettled ones but
that; every pending request with a timeout has its timer; no reply reaches a listener;
the limit holds; and nothing that is settled changes. -/
theorem requests_settle_once {timeoutMs : Decimal} {maxPending : Option Nat}
    {es : List ClientEvent} (run : Run step TellsAll (create timeoutMs maxPending) es s) :
    (∀ mid ∈ s.accepted, mid ∈ s.fired ∨ s.closed = true →
        s.settled.has mid = true ∨ s.Noticed mid) ∧
      s.pendingCount + s.notice.toList.length = s.unsettled.length ∧
      (∀ mid p, s.pending.get? mid = some p → p.timer = true → ∃ t ∈ s.timers, t.mid = mid) ∧
      (∀ h ∈ s.heard, h.2.isReply = false) ∧
      (∀ max, s.maxPending = some max → s.pendingCount ≤ max) ∧
      ∀ es' s', Run step TellsAll s es' s' → Keeps s s' := by
  have sound := run.invariant Sound (fun _ _ _ h good hstep => sound_step h good hstep)
    (sound_create timeoutMs maxPending)
  refine ⟨fun mid accepted ended => ?_, pendingCount_eq sound, sound.awaited.armed,
    sound.quiet.told, sound.awaited.limit, fun es' s' later => ?_⟩
  · have out : s.pending.has mid = false := by
      rcases ended with fired | closed
      · exact (sound.firedAccepted mid fired).2
      · rw [sound.awaited.ended closed]
        rfl
    cases done : s.settled.has mid with
    | true => exact .inl rfl
    | false =>
      rcases (sound.outstanding mid accepted).mp done with pending | noticed
      · rw [out] at pending
        cases pending
      · exact .inr noticed
  · exact keeps_run later

/-! ## A request that times out -/

/-- A listener for errors, and a request that gets no reply. -/
def unanswered : List ClientEvent :=
  [.onError 0, .request (lit "t") .null none (lit "m"), .sent (lit "m") none,
    .fire ⟨lit "t", lit "m", .ofNat 5⟩]

theorem requests_settle_once_unanswered : ∃ s, Run step TellsAll (create (.ofNat 5) none)
      (unanswered ++ [.told true]) s ∧
    s.pendingCount + s.notice.toList.length = s.unsettled.length := by
  obtain ⟨s, run⟩ := Run.of_allGood step TellsAll (create (.ofNat 5) none)
    (unanswered ++ [.told true]) (by decide +kernel)
  exact ⟨s, run, (requests_settle_once run).2.1⟩

/-- A listener that throws when it is told leaves the request unsettled for good: it
is not pending, its timer is gone, and `close` does not know it. While the listener is
told, the request is not counted either. -/
theorem thrown_notice_is_lost : ∃ s s',
    Run step (fun _ _ => True) (create (.ofNat 5) none) unanswered s ∧
      s.pendingCount = 0 ∧ s.unsettled = [lit "m"] ∧
      Run step (fun _ _ => True) s [.told false, .close] s' ∧
      s'.closed = true ∧ s'.fired = [lit "m"] ∧ s'.notice.isNone = true ∧
      s'.unsettled = [lit "m"] := by
  obtain ⟨s', run⟩ := Run.of_allGood step (fun _ _ => True) (create (.ofNat 5) none)
    (unanswered ++ [.told false, .close]) (by decide +kernel)
  obtain ⟨s, first, second⟩ := run.split
  refine ⟨s, s', first, ?_, ?_, second, ?_, ?_, ?_, ?_⟩
  · exact first.read (f := pendingCount) (by decide +kernel)
  · exact first.read (f := unsettled) (by decide +kernel)
  · exact run.read (f := fun s => s.closed) (a := true) (by decide +kernel)
  · exact run.read (f := fun s => s.fired) (a := [lit "m"]) (by decide +kernel)
  · exact run.read (f := fun s => s.notice.isNone) (a := true) (by decide +kernel)
  · exact run.read (f := unsettled) (by decide +kernel)

end LemonModel.SocketClient
