import LemonModel.LogTrace.Contents

/-!
# Handlers that throw

A handler that throws takes the handlers behind it, and the rest of the batch, with it. It
does no harm only as the last handler, with nothing new behind the entry.
-/

namespace LemonModel

open Text

namespace LogTraceConsumer

variable {c c' : LogTraceConsumer} {react : Nat → LogTraceEntry → LogTraceReaction}
  {entry : LogTraceEntry} {handlers : List Nat} {entries : List LogTraceEntry}

/-- The same handlers, with what they throw caught. -/
def calmly (react : Nat → LogTraceEntry → LogTraceReaction) (handler : Nat)
    (entry : LogTraceEntry) : LogTraceReaction :=
  { react handler entry with throws := false }

theorem calm_calmly (react : Nat → LogTraceEntry → LogTraceReaction) : Calm (calmly react) :=
  fun _ _ => rfl

/-! ## One entry -/

/-- A handler that throws is the last one. -/
def ThrowsLast (react : Nat → LogTraceEntry → LogTraceReaction) (entry : LogTraceEntry)
    (handlers : List Nat) : Prop :=
  ∀ before handler after, handlers = before ++ handler :: after →
    (react handler entry).throws = true → after = []

theorem notify_goesOn_iff (c : LogTraceConsumer) (handlers : List Nat) :
    (notify react entry c handlers).2 = true ↔
      ∀ handler ∈ handlers, (react handler entry).throws = false := by
  induction handlers generalizing c with
  | nil => exact iff_of_true rfl fun _ mem => (nomatch mem)
  | cons handler rest ih =>
    simp only [notify, List.forall_mem_cons]
    cases throws : (react handler entry).throws with
    | true => simp
    | false =>
      simp only [Bool.false_eq_true, if_false, true_and]
      exact ih _

theorem notify_calmly (quiet : ∀ handler ∈ handlers, (react handler entry).throws = false)
    (c : LogTraceConsumer) :
    notify (calmly react) entry c handlers = notify react entry c handlers := by
  induction handlers generalizing c with
  | nil => rfl
  | cons handler rest ih =>
    obtain ⟨first, others⟩ := List.forall_mem_cons.mp quiet
    simp only [notify, calmly, first, Bool.false_eq_true, if_false]
    exact ih others _

/-- Every handler hears of the entry. -/
theorem heard_calmly (c : LogTraceConsumer) (handlers : List Nat) :
    (notify (calmly react) entry c handlers).1.heard =
      (handlers.map fun handler => (handler, entry)).reverse ++ c.heard := by
  induction handlers generalizing c with
  | nil => rfl
  | cons handler rest ih =>
    simp only [notify, calmly, Bool.false_eq_true, if_false] at ih ⊢
    rw [ih, heard_calls, List.map_cons, List.reverse_cons, List.append_assoc]
    rfl

/-- A handler that throws leaves the state as it would be without, if it is the last one. -/
theorem notify_last (last : ThrowsLast react entry handlers) (c : LogTraceConsumer) :
    (notify react entry c handlers).1 = (notify (calmly react) entry c handlers).1 := by
  induction handlers generalizing c with
  | nil => rfl
  | cons handler rest ih =>
    simp only [notify, calmly, Bool.false_eq_true, if_false] at ih ⊢
    cases throws : (react handler entry).throws with
    | true =>
      have none_ : rest = [] := last [] handler rest rfl throws
      rw [none_]
      rfl
    | false =>
      simp only [Bool.false_eq_true, if_false]
      apply ih
      intro before other after split
      exact last (handler :: before) other after (congrArg (handler :: ·) split)

/-- The handlers that hear of the entry are all of them only if the last one throws. -/
theorem heard_last (c : LogTraceConsumer) (handlers : List Nat) :
    (notify react entry c handlers).1.heard.length ≤ handlers.length + c.heard.length ∧
      ((notify react entry c handlers).1.heard.length = handlers.length + c.heard.length →
        ThrowsLast react entry handlers) := by
  induction handlers generalizing c with
  | nil =>
    refine ⟨Nat.le_add_left _ _, fun _ before handler after split => ?_⟩
    simp at split
  | cons handler rest ih =>
    simp only [notify]
    cases throws : (react handler entry).throws with
    | true =>
      simp only [if_true, heard_calls, List.length_cons]
      refine ⟨by omega, fun full before other after split threw => ?_⟩
      have none_ : rest = [] := List.eq_nil_of_length_eq_zero (by omega)
      rw [none_] at split
      cases before with
      | nil => exact (List.cons.inj split).2.symm
      | cons => simp at split
    | false =>
      simp only [Bool.false_eq_true, if_false]
      obtain ⟨most, last⟩ := ih ((react handler entry).calls.foldl call
        { c with heard := (handler, entry) :: c.heard })
      rw [heard_calls] at most last
      simp only [List.length_cons] at most last ⊢
      refine ⟨by omega, fun full before other after split threw => ?_⟩
      cases before with
      | nil =>
        obtain ⟨rfl, -⟩ := List.cons.inj split
        rw [throws] at threw
        cases threw
      | cons first before => exact last (by omega) before other after (List.cons.inj split).2 threw

/-! ## A batch -/

/-- Every entry of the list was seen. -/
def AllSeen (c : LogTraceConsumer) (entries : List LogTraceEntry) : Prop :=
  ∀ e ∈ entries, e.seq ∈ (c.stateOf e.source).seen

theorem allSeen_congr (sources : c'.sources = c.sources) :
    c'.AllSeen entries ↔ c.AllSeen entries := by
  unfold AllSeen stateOf
  rw [sources]

theorem examineAll_seen (seen : c.AllSeen entries) : examineAll react c entries = c := by
  induction entries with
  | nil => rfl
  | cons entry rest ih =>
    obtain ⟨known, others⟩ := List.forall_mem_cons.mp seen
    simp only [examineAll, examine_known known, if_true]
    exact ih others

/-- What one round does to the numbers that were seen and to what was heard. -/
theorem examine_grows (react : Nat → LogTraceEntry → LogTraceReaction) (entry : LogTraceEntry)
    (c : LogTraceConsumer) :
    (∀ source, (c.stateOf source).seen ⊆ ((c.examine react entry).1.stateOf source).seen) ∧
      entry.seq ∈ ((c.examine react entry).1.stateOf entry.source).seen := by
  have accounted : (∀ source, (c.stateOf source).seen ⊆ ((c.account entry).stateOf source).seen) ∧
      entry.seq ∈ ((c.account entry).stateOf entry.source).seen := by
    constructor
    · intro source
      rw [stateOf_account]
      split
      · rename_i own
        rw [own]
        exact List.subset_cons_self _ _
      · exact List.Subset.refl _
    · rw [stateOf_account, if_pos rfl]
      exact List.mem_cons_self
  by_cases known : entry.seq ∈ (c.stateOf entry.source).seen
  · rw [examine_known known]
    exact ⟨fun _ => List.Subset.refl _, known⟩
  · cases low : entry.below c.minLevel with
    | true =>
      rw [examine_low known low]
      exact accounted
    | false =>
      have reacted := reacted_notify react entry ((c.account entry).store entry) c.handlers
      rw [examine_stored known low]
      unfold stateOf at *
      rw [reacted.sources]
      exact accounted

theorem heard_examine (react : Nat → LogTraceEntry → LogTraceReaction) (entry : LogTraceEntry)
    (c : LogTraceConsumer) : c.heard.length ≤ (c.examine (calmly react) entry).1.heard.length := by
  by_cases known : entry.seq ∈ (c.stateOf entry.source).seen
  · rw [examine_known known]
  · cases low : entry.below c.minLevel with
    | true =>
      rw [examine_low known low]
      exact le_rfl
    | false =>
      rw [examine_stored known low, heard_calmly, List.length_append]
      exact Nat.le_add_left _ _

/-- Once a batch was examined, its entries were seen. -/
theorem examineAll_grows (react : Nat → LogTraceEntry → LogTraceReaction)
    (entries : List LogTraceEntry) (c : LogTraceConsumer) :
    (∀ source, (c.stateOf source).seen ⊆
        ((examineAll (calmly react) c entries).stateOf source).seen) ∧
      (examineAll (calmly react) c entries).AllSeen entries ∧
      c.heard.length ≤ (examineAll (calmly react) c entries).heard.length := by
  induction entries generalizing c with
  | nil => exact ⟨fun _ => List.Subset.refl _, fun _ mem => (nomatch mem), le_rfl⟩
  | cons entry rest ih =>
    obtain ⟨more, own⟩ := examine_grows (calmly react) entry c
    obtain ⟨more', seen, heard⟩ := ih (c.examine (calmly react) entry).1
    simp only [examineAll, examine_calm (calm_calmly react), if_true]
    refine ⟨fun source => List.Subset.trans (more source) (more' source), ?_,
      (heard_examine react entry c).trans heard⟩
    exact List.forall_mem_cons.mpr ⟨more' _ own, seen⟩

/-- A handler throws on an entry that is new only as the last one, and on one behind which
the batch has nothing new. The entries are those that come if nothing throws. -/
def Harmless (react : Nat → LogTraceEntry → LogTraceReaction) :
    LogTraceConsumer → List LogTraceEntry → Prop
  | _, [] => True
  | c, entry :: rest =>
    (entry.seq ∉ (c.stateOf entry.source).seen → entry.below c.minLevel = false →
        ThrowsLast react entry c.handlers ∧
          ((∃ handler ∈ c.handlers, (react handler entry).throws = true) →
            (c.account entry).AllSeen rest)) ∧
      Harmless react (c.examine (calmly react) entry).1 rest

theorem harmless_of_seen (seen : c.AllSeen entries) : Harmless react c entries := by
  induction entries with
  | nil => trivial
  | cons entry rest ih =>
    obtain ⟨known, others⟩ := List.forall_mem_cons.mp seen
    refine ⟨fun fresh => absurd known fresh, ?_⟩
    rw [examine_known known]
    exact ih others

/-- What was stored and counted, and what the handlers were told. -/
def outcome (c : LogTraceConsumer) :
    List LogTraceEntry × Dict JSString LogTraceSourceState × List (Nat × LogTraceEntry) :=
  (c.stored, c.sources, c.heard)

/-- Where a handler threw and nothing is lost, it was the last one, and nothing new comes. -/
theorem thrown_alike {rest : List LogTraceEntry} {d : LogTraceConsumer}
    (alike : (notify react entry d handlers).1.outcome =
      (examineAll (calmly react) (notify (calmly react) entry d handlers).1 rest).outcome) :
    ThrowsLast react entry handlers ∧ d.AllSeen rest := by
  simp only [outcome, Prod.mk.injEq] at alike
  obtain ⟨-, sources, told⟩ := alike
  obtain ⟨-, seen, heard⟩ :=
    examineAll_grows react rest (notify (calmly react) entry d handlers).1
  have counted : (notify react entry d handlers).1.heard.length ≤
      handlers.length + d.heard.length ∧ (_ → ThrowsLast react entry handlers) :=
    heard_last d handlers
  obtain ⟨most, last⟩ := counted
  rw [← told, heard_calmly, List.length_append, List.length_reverse, List.length_map] at heard
  refine ⟨last (by omega), ?_⟩
  rw [← allSeen_congr (reacted_notify react entry d handlers).sources]
  exact (allSeen_congr sources).mpr seen

theorem thrown_last {rest : List LogTraceEntry} {d : LogTraceConsumer}
    (last : ThrowsLast react entry handlers) (seen : d.AllSeen rest) :
    (notify react entry d handlers).1 =
      examineAll (calmly react) (notify (calmly react) entry d handlers).1 rest := by
  have reacted := reacted_notify (calmly react) entry d handlers
  rw [examineAll_seen ((allSeen_congr reacted.sources).mpr seen), notify_last last]

/-- A round goes on as it would if nothing threw, or stops at a new entry on which a
handler throws. -/
theorem round_cases (react : Nat → LogTraceEntry → LogTraceReaction) (entry : LogTraceEntry)
    (c : LogTraceConsumer) :
    (c.examine (calmly react) entry = c.examine react entry ∧ (c.examine react entry).2 = true ∧
      (entry.seq ∉ (c.stateOf entry.source).seen → entry.below c.minLevel = false →
        ∀ handler ∈ c.handlers, (react handler entry).throws = false)) ∨
      (entry.seq ∉ (c.stateOf entry.source).seen ∧ entry.below c.minLevel = false ∧
        (∃ handler ∈ c.handlers, (react handler entry).throws = true) ∧
        (c.examine react entry).2 ≠ true) := by
  by_cases known : entry.seq ∈ (c.stateOf entry.source).seen
  · left
    rw [examine_known known, examine_known known]
    exact ⟨rfl, rfl, fun fresh => absurd known fresh⟩
  · cases low : entry.below c.minLevel with
    | true =>
      left
      rw [examine_low known low, examine_low known low]
      refine ⟨rfl, rfl, fun _ above => ?_⟩
      cases above
    | false =>
      rw [examine_stored known low, examine_stored known low]
      by_cases quiet : ∀ handler ∈ c.handlers, (react handler entry).throws = false
      · left
        exact ⟨notify_calmly quiet _, (notify_goesOn_iff _ _).mpr quiet, fun _ _ => quiet⟩
      · right
        refine ⟨known, rfl, by simpa using quiet, fun goesOn => ?_⟩
        exact quiet ((notify_goesOn_iff _ _).mp goesOn)

theorem harmless_of_alike (alike : (examineAll react c entries).outcome =
    (examineAll (calmly react) c entries).outcome) : Harmless react c entries := by
  induction entries generalizing c with
  | nil => trivial
  | cons entry rest ih =>
    simp only [examineAll, examine_calm (calm_calmly react), if_true] at alike
    rcases round_cases react entry c with ⟨same, goesOn, quiet⟩ | ⟨fresh, above, -, stops⟩
    · rw [if_pos goesOn, ← same] at alike
      refine ⟨fun fresh above => ⟨fun before handler after split threw => ?_, ?_⟩, ih alike⟩
      · rw [quiet fresh above handler (split ▸ List.mem_append_cons_self)] at threw
        cases threw
      · rintro ⟨handler, mem, threw⟩
        rw [quiet fresh above handler mem] at threw
        cases threw
    · rw [if_neg stops, examine_stored fresh above, examine_stored fresh above] at alike
      obtain ⟨last, seen⟩ := thrown_alike alike
      refine ⟨fun _ _ => ⟨last, fun _ => seen⟩, ?_⟩
      rw [examine_stored fresh above]
      apply harmless_of_seen
      exact (allSeen_congr (reacted_notify (calmly react) entry _ _).sources).mpr seen

theorem Harmless.same (harmless : Harmless react c entries) :
    examineAll react c entries = examineAll (calmly react) c entries := by
  induction entries generalizing c with
  | nil => rfl
  | cons entry rest ih =>
    obtain ⟨round, others⟩ := harmless
    simp only [examineAll, examine_calm (calm_calmly react), if_true]
    rcases round_cases react entry c with ⟨same, goesOn, -⟩ | ⟨fresh, above, threw, stops⟩
    · rw [same] at others
      rw [if_pos goesOn, same]
      exact ih others
    · obtain ⟨last, seen⟩ := round fresh above
      rw [if_neg stops, examine_stored fresh above, examine_stored fresh above]
      exact thrown_last last (seen threw)

/-! ## Over a run -/

/-- An event whose handlers do not throw. -/
def calmEvent : LogTraceEvent → LogTraceEvent
  | .message raw react => .message raw (calmly react)
  | .call a => .call a

/-- The consumer as it begins with a batch. -/
def begin (c : LogTraceConsumer) (batch : LogTraceBatch) : LogTraceConsumer :=
  { c with
    sources := c.sources.set batch.source (c.stateOf batch.source)
    received := c.received ++ batch.entries }

/-- What the handlers throw as an event happens does no harm. -/
def HarmlessEvent (c : LogTraceConsumer) : LogTraceEvent → Prop
  | .message raw react =>
    c.closed = false → ∀ batch, readBatch c.typePrefix raw = some batch →
      Harmless react (c.begin batch) batch.entries
  | .call _ => True

theorem harmless_of_step_alike (c : LogTraceConsumer) (e : LogTraceEvent)
    (alike : (c.step e).map outcome = (c.step (calmEvent e)).map outcome) : HarmlessEvent c e := by
  cases e with
  | call a => trivial
  | message raw react =>
    intro open_ batch read
    simp only [step, calmEvent, open_, read, Bool.false_eq_true, if_false, Option.map_some,
      Option.some.injEq] at alike
    exact harmless_of_alike alike

theorem HarmlessEvent.same (c : LogTraceConsumer) (e : LogTraceEvent)
    (harmless : HarmlessEvent c e) : c.step e = c.step (calmEvent e) := by
  cases e with
  | call a => rfl
  | message raw react =>
    simp only [step, calmEvent]
    cases open_ : c.closed with
    | true => rfl
    | false =>
      cases read : readBatch c.typePrefix raw with
      | none => rfl
      | some batch =>
        simp only [Bool.false_eq_true, if_false, Option.some.injEq]
        exact (harmless open_ batch read).same

/-- **What a throwing handler costs.** All along, what is stored, counted and told is what it
would be had no handler thrown, exactly if every handler that throws on a new entry is the
last one, and has nothing new behind the entry in its batch. -/
theorem throwing_handlers_cost {typePrefix : Option JSString} {min : Option LogTraceLevel}
    {most : Option ℚ} {es : List LogTraceEvent} {c : LogTraceConsumer}
    (h : exec step (create typePrefix min most) es = some c) :
    (∀ pre, pre <+: es → (exec step (create typePrefix min most) pre).map outcome =
        (exec step (create typePrefix min most) (pre.map calmEvent)).map outcome) ↔
      Run step HarmlessEvent (create typePrefix min most) es c :=
  exec_alike_iff harmless_of_step_alike HarmlessEvent.same h

/-! A handler that throws on the first of two entries, or on the second. -/

/-- Every handler throws on the entry with this number. -/
def throwsOn (n : Nat) (_ : Nat) (entry : LogTraceEntry) : LogTraceReaction :=
  ⟨[], entry.seq = n⟩

def twoEntries (n : Nat) : List LogTraceEvent :=
  [.call (.onEntry 0), .message (batchText (lit "a") [entryJson 10 1, entryJson 20 2]) (throwsOn n)]

theorem throwing_handlers_cost_second :
    ∃ c, Run step HarmlessEvent (create none none none) (twoEntries 2) c ∧ c.stored.length = 2 := by
  have done : (exec step (create none none none) (twoEntries 2)).isSome = true := by
    decide +kernel
  obtain ⟨c, hexec⟩ := Option.isSome_iff_exists.mp done
  have run := (throwing_handlers_cost hexec).mp fun pre hpre => by
    rw [← List.mem_inits, twoEntries] at hpre
    simp only [List.inits, List.map_cons, List.map_nil, List.mem_cons, List.not_mem_nil,
      or_false] at hpre
    rcases hpre with rfl | rfl | rfl
    · rfl
    · rfl
    · decide +kernel
  exact ⟨c, run, run.read (f := fun c => c.stored.length) (by decide +kernel)⟩

/-- The second entry is neither stored nor counted, and nobody hears of it. -/
theorem throwing_handler_loses_entry :
    (exec step (create none none none) (twoEntries 1)).map
        (fun c => (c.stored.length, (c.stateOf (lit "a")).seen, c.heard.length)) = some (1, [1], 1) ∧
      (exec step (create none none none) ((twoEntries 1).map calmEvent)).map
        (fun c => (c.stored.length, (c.stateOf (lit "a")).seen, c.heard.length)) =
        some (2, [2, 1], 2) := by
  decide +kernel

end LogTraceConsumer

end LemonModel
