import LemonModel.LogTrace.Consumer
import Mathlib.Algebra.BigOperators.Group.Finset.Basic
import Mathlib.Data.Finset.Interval
import Mathlib.Order.Interval.Finset.Nat

/-!
# What a log consumer holds

Over every run the entries are the greatest of those accepted since the last `clear`, no
entry is stored or told twice, and `gapCount` is what the sources lack.
-/

namespace LemonModel

open Text

namespace LogTraceConsumer

variable {c c' : LogTraceConsumer} {react : Nat → LogTraceEntry → LogTraceReaction}
  {entry : LogTraceEntry}

/-! ## What the handlers leave as it is -/

/-- Apart from who is told what, the handlers can only drop what is retained. -/
structure Reacted (c c' : LogTraceConsumer) : Prop where
  minLevel : c'.minLevel = c.minLevel
  maxEntries : c'.maxEntries = c.maxEntries
  sources : c'.sources = c.sources
  received : c'.received = c.received
  stored : c'.stored = c.stored
  contents : c'.entries = c.entries ∧ c'.accepted = c.accepted ∨ c'.entries = [] ∧ c'.accepted = []

theorem Reacted.refl (c : LogTraceConsumer) : c.Reacted c :=
  ⟨rfl, rfl, rfl, rfl, rfl, .inl ⟨rfl, rfl⟩⟩

theorem Reacted.trans {c'' : LogTraceConsumer} (h : c.Reacted c') (h' : c'.Reacted c'') :
    c.Reacted c'' where
  minLevel := h'.minLevel.trans h.minLevel
  maxEntries := h'.maxEntries.trans h.maxEntries
  sources := h'.sources.trans h.sources
  received := h'.received.trans h.received
  stored := h'.stored.trans h.stored
  contents := by
    rcases h'.contents with ⟨entries, accepted⟩ | gone
    · rw [entries, accepted]
      exact h.contents
    · exact .inr gone

theorem reacted_call (c : LogTraceConsumer) (a : LogTraceCall) : c.Reacted (c.call a) := by
  cases a with
  | onEntry handler =>
    by_cases known : handler ∈ c.handlers
    · simp only [call, if_pos known]
      exact .refl c
    · simp only [call, if_neg known]
      exact ⟨rfl, rfl, rfl, rfl, rfl, .inl ⟨rfl, rfl⟩⟩
  | unsubscribe handler => exact ⟨rfl, rfl, rfl, rfl, rfl, .inl ⟨rfl, rfl⟩⟩
  | clear => exact ⟨rfl, rfl, rfl, rfl, rfl, .inr ⟨rfl, rfl⟩⟩
  | close => exact ⟨rfl, rfl, rfl, rfl, rfl, .inl ⟨rfl, rfl⟩⟩

theorem reacted_calls (calls : List LogTraceCall) (c : LogTraceConsumer) :
    c.Reacted (calls.foldl call c) := by
  induction calls generalizing c with
  | nil => exact .refl c
  | cons a calls ih => exact (reacted_call c a).trans (ih (c.call a))

theorem reacted_notify (react : Nat → LogTraceEntry → LogTraceReaction) (entry : LogTraceEntry)
    (c : LogTraceConsumer) (handlers : List Nat) :
    c.Reacted (notify react entry c handlers).1 := by
  induction handlers generalizing c with
  | nil => exact .refl c
  | cons handler rest ih =>
    have told : c.Reacted { c with heard := (handler, entry) :: c.heard } :=
      ⟨rfl, rfl, rfl, rfl, rfl, .inl ⟨rfl, rfl⟩⟩
    have after := told.trans (reacted_calls (react handler entry).calls _)
    simp only [notify]
    split
    · exact after
    · exact after.trans (ih _)

/-! ## The retained entries -/

/-- How many entries may be retained. -/
def capacity (c : LogTraceConsumer) : Nat := ⌊c.maxEntries⌋.toNat

/-- What is retained are the greatest of the accepted entries. -/
def Kept (c : LogTraceConsumer) : Prop :=
  c.entries = greatest LogTraceEntry.Le c.capacity c.accepted

theorem Kept.reacted (kept : c.Kept) (h : c.Reacted c') : c'.Kept := by
  unfold Kept capacity at *
  rcases h.contents with ⟨entries, accepted⟩ | ⟨entries, accepted⟩
  · rw [entries, accepted, h.maxEntries]
    exact kept
  · rw [entries, accepted, greatest_nil]

/-- There are too many exactly when one more than the capacity is there. -/
theorem overflow_iff (c : LogTraceConsumer) {n : Nat} (h : n ≤ c.capacity) :
    ((n + 1 : Nat) : ℚ) > c.maxEntries ↔ n = c.capacity := by
  have floor : ((n + 1 : Nat) : ℚ) > c.maxEntries ↔ ⌊c.maxEntries⌋ < ((n + 1 : Nat) : Int) := by
    rw [Int.floor_lt]
    norm_cast
  rw [floor]
  unfold capacity at *
  omega

theorem kept_store (kept : c.Kept) (entry : LogTraceEntry) : (c.store entry).Kept := by
  have sorted : c.entries.Pairwise LogTraceEntry.Le := by
    rw [kept]
    exact pairwise_greatest _ _
  have size : c.entries.length = min c.capacity c.accepted.length := by
    rw [kept]
    exact length_greatest _ _
  have right : ∀ i (hi : i < c.entries.length),
      ((c.entries[i]?).any fun e => e.compare entry ≤ 0) = true ↔ c.entries[i].Le entry := by
    intro i hi
    simp [List.getElem?_eq_getElem hi, LogTraceEntry.Le]
  have place := bisect_rank sorted entry right
  have insert : ∀ lo, lo = rank LogTraceEntry.Le entry c.entries →
      c.entries.take lo ++ entry :: c.entries.drop lo = insertBehind LogTraceEntry.Le entry c.entries :=
    fun lo h => by rw [h, insertBehind_eq]
  have room := overflow_iff c (n := c.entries.length) (by omega)
  show (c.store entry).entries = greatest LogTraceEntry.Le c.capacity (c.accepted ++ [entry])
  rw [greatest_append, ← kept]
  simp only [store, insert _ place, length_insertBehind]
  by_cases full : c.entries.length = c.capacity
  · rw [if_pos (room.mpr full), ← List.drop_one]
    congr 1
    omega
  · rw [if_neg (fun h => full (room.mp h)), Nat.sub_eq_zero_of_le (by omega), List.drop_zero]

/-! ## What came from the sources -/

/-- The first copy of each entry. -/
def firstCopies (l : List LogTraceEntry) : List LogTraceEntry :=
  l.foldl (fun first e => if e.key ∈ first.map LogTraceEntry.key then first else first ++ [e]) []

theorem firstCopies_append (l : List LogTraceEntry) (e : LogTraceEntry) :
    firstCopies (l ++ [e]) =
      if e.key ∈ (firstCopies l).map LogTraceEntry.key then firstCopies l
      else firstCopies l ++ [e] := by
  rw [firstCopies, List.foldl_append]
  rfl

theorem key_firstCopies (l : List LogTraceEntry) (k : JSString × Nat) :
    k ∈ (firstCopies l).map LogTraceEntry.key ↔ k ∈ l.map LogTraceEntry.key := by
  induction l using List.reverseRecOn with
  | nil => rfl
  | append_singleton l e ih =>
    rw [firstCopies_append, List.map_append, List.mem_append, List.map_singleton,
      List.mem_singleton]
    by_cases known : e.key ∈ (firstCopies l).map LogTraceEntry.key
    · rw [if_pos known, ih]
      constructor
      · exact .inl
      · rintro (mem | rfl)
        · exact mem
        · exact ih.mp known
    · rw [if_neg known, List.map_append, List.mem_append, ih, List.map_singleton,
        List.mem_singleton]

theorem nodup_firstCopies (l : List LogTraceEntry) :
    ((firstCopies l).map LogTraceEntry.key).Nodup := by
  induction l using List.reverseRecOn with
  | nil => exact List.nodup_nil
  | append_singleton l e ih =>
    rw [firstCopies_append]
    by_cases known : e.key ∈ (firstCopies l).map LogTraceEntry.key
    · rw [if_pos known]
      exact ih
    · rw [if_neg known, List.map_append, List.nodup_append]
      refine ⟨ih, List.nodup_singleton _, ?_⟩
      rintro k mem _ here rfl
      rw [List.map_singleton, List.mem_singleton] at here
      exact known (here ▸ mem)

/-- The account of the sources after the entries `came`, and what is stored of them. -/
structure Tally (came : List LogTraceEntry) (c : LogTraceConsumer) : Prop where
  nodup : ∀ source, (c.stateOf source).seen.Nodup
  seen : ∀ source n, n ∈ (c.stateOf source).seen ↔ (source, n) ∈ came.map LogTraceEntry.key
  maxSeq : ∀ source, (c.stateOf source).maxSeq = (c.stateOf source).seen.foldr max 0
  stored : c.stored = (firstCopies came).filter fun e => !e.below c.minLevel

variable {came : List LogTraceEntry}

theorem Tally.reacted (h : c.Tally came) (reacted : c.Reacted c') : c'.Tally came := by
  have same : ∀ source, c'.stateOf source = c.stateOf source := fun source => by
    rw [stateOf, reacted.sources, stateOf]
  refine ⟨fun source => ?_, fun source n => ?_, fun source => ?_, ?_⟩
  · rw [same]
    exact h.nodup source
  · rw [same]
    exact h.seen source n
  · rw [same]
    exact h.maxSeq source
  · rw [reacted.stored, reacted.minLevel]
    exact h.stored

theorem stateOf_account (c : LogTraceConsumer) (entry : LogTraceEntry) (source : JSString) :
    (c.account entry).stateOf source =
      if source = entry.source then
        ⟨max entry.seq (c.stateOf entry.source).maxSeq, entry.seq :: (c.stateOf entry.source).seen⟩
      else c.stateOf source := by
  simp only [stateOf, account, Dict.get?_set]
  by_cases own : source = entry.source
  · rw [if_pos own, if_pos own, Option.getD_some]
  · rw [if_neg own, if_neg own]

/-- A number that was seen is that of an entry that came. -/
theorem Tally.seen_iff (h : c.Tally came) (entry : LogTraceEntry) :
    entry.seq ∈ (c.stateOf entry.source).seen ↔
      entry.key ∈ (firstCopies came).map LogTraceEntry.key := by
  rw [h.seen, key_firstCopies, LogTraceEntry.key]

theorem Tally.again (h : c.Tally came) (known : entry.seq ∈ (c.stateOf entry.source).seen) :
    c.Tally (came ++ [entry]) := by
  have first := (h.seen_iff entry).mp known
  refine ⟨h.nodup, fun source n => ?_, h.maxSeq, ?_⟩
  · rw [h.seen, List.map_append, List.mem_append, List.map_singleton, List.mem_singleton]
    constructor
    · exact .inl
    · rintro (mem | same)
      · exact mem
      · exact same ▸ (key_firstCopies came entry.key).mp first
  · rw [firstCopies_append, if_pos first]
    exact h.stored

theorem Tally.account (h : c.Tally came) (fresh : entry.seq ∉ (c.stateOf entry.source).seen)
    (stored : c'.stored = c.stored ++ if entry.below c.minLevel then [] else [entry])
    (sources : c'.sources = (c.account entry).sources) (minLevel : c'.minLevel = c.minLevel) :
    c'.Tally (came ++ [entry]) := by
  have state : ∀ source, c'.stateOf source = (c.account entry).stateOf source := fun source => by
    rw [stateOf, sources, stateOf]
  have new := mt (h.seen_iff entry).mpr fresh
  refine ⟨fun source => ?_, fun source n => ?_, fun source => ?_, ?_⟩
  · rw [state, stateOf_account]
    split
    · exact List.nodup_cons.mpr ⟨fresh, h.nodup _⟩
    · exact h.nodup source
  · rw [state, stateOf_account, List.map_append, List.mem_append, List.map_singleton,
      List.mem_singleton, LogTraceEntry.key, Prod.mk.injEq]
    split
    · rename_i own
      rw [List.mem_cons, h.seen, own]
      tauto
    · rename_i other
      rw [h.seen]
      tauto
  · rw [state, stateOf_account]
    split
    · rw [List.foldr_cons, h.maxSeq]
    · exact h.maxSeq source
  · rw [stored, minLevel, firstCopies_append, if_neg new, List.filter_append, h.stored]
    by_cases low : entry.below c.minLevel = true
    · simp [low]
    · simp [low]

/-! ## What the handlers were told -/

/-- What a handler was called with, the newest first. -/
def told (c : LogTraceConsumer) (handler : Nat) : List LogTraceEntry :=
  (c.heard.filter fun h => h.1 = handler).map Prod.snd

/-- No handler was called twice with an entry, and only with what was stored. -/
structure Told (c : LogTraceConsumer) : Prop where
  stored : ∀ h ∈ c.heard, h.2 ∈ c.stored
  once : ∀ handler, ((c.told handler).map LogTraceEntry.key).Nodup
  handlers : c.handlers.Nodup

theorem heard_calls (calls : List LogTraceCall) (c : LogTraceConsumer) :
    (calls.foldl call c).heard = c.heard := by
  induction calls generalizing c with
  | nil => rfl
  | cons a calls ih =>
    rw [List.foldl_cons, ih]
    cases a with
    | onEntry handler =>
      unfold call
      dsimp only
      split <;> rfl
    | unsubscribe _ | clear | close => rfl

theorem nodup_call (h : c.handlers.Nodup) (a : LogTraceCall) : (c.call a).handlers.Nodup := by
  cases a with
  | onEntry handler =>
    unfold call
    dsimp only
    split
    · exact h
    · rename_i fresh
      exact List.nodup_append.mpr ⟨h, List.nodup_singleton _, fun a mem b single => by
        rintro rfl
        exact fresh (List.mem_singleton.mp single ▸ mem)⟩
  | unsubscribe handler => exact h.filter _
  | clear => exact h
  | close => exact List.nodup_nil

theorem nodup_calls (calls : List LogTraceCall) (h : c.handlers.Nodup) :
    (calls.foldl call c).handlers.Nodup := by
  induction calls generalizing c with
  | nil => exact h
  | cons a calls ih => exact ih (nodup_call h a)

theorem Told.calls (h : c.Told) (calls : List LogTraceCall) : (calls.foldl call c).Told where
  stored p mem := by
    rw [heard_calls] at mem
    rw [(reacted_calls calls c).stored]
    exact h.stored p mem
  once handler := by
    rw [told, heard_calls]
    exact h.once handler
  handlers := nodup_calls calls h.handlers

theorem told_heard (c : LogTraceConsumer) (handler other : Nat) (entry : LogTraceEntry) :
    { c with heard := (handler, entry) :: c.heard }.told other =
      if handler = other then entry :: c.told other else c.told other := by
  unfold told
  by_cases same : handler = other
  · rw [if_pos same, List.filter_cons_of_pos (by simpa using same), List.map_cons]
  · rw [if_neg same, List.filter_cons_of_neg (by simpa using same)]

theorem told_notify (entry : LogTraceEntry) {handlers : List Nat} (nodup : handlers.Nodup)
    (h : c.Told) (stored : entry ∈ c.stored)
    (fresh : ∀ handler ∈ handlers, entry.key ∉ (c.told handler).map LogTraceEntry.key) :
    (notify react entry c handlers).1.Told := by
  induction handlers generalizing c with
  | nil => exact h
  | cons handler rest ih =>
    obtain ⟨other, nodup⟩ := List.nodup_cons.mp nodup
    obtain ⟨new, fresh⟩ := List.forall_mem_cons.mp fresh
    have called : { c with heard := (handler, entry) :: c.heard }.Told := by
      refine ⟨List.forall_mem_cons.mpr ⟨stored, h.stored⟩, fun other => ?_, h.handlers⟩
      rw [told_heard]
      split
      · rename_i same
        exact List.nodup_cons.mpr ⟨same ▸ new, h.once other⟩
      · exact h.once other
    have after := called.calls (react handler entry).calls
    simp only [notify]
    split
    · exact after
    · apply ih nodup after
      · rw [(reacted_calls _ _).stored]
        exact stored
      · intro next mem
        rw [told, heard_calls]
        have apart : handler ≠ next := fun same => other (same ▸ mem)
        have same := told_heard c handler next entry
        rw [if_neg apart] at same
        change entry.key ∉ ({ c with heard := (handler, entry) :: c.heard }.told next).map _
        rw [same]
        exact fresh next mem

/-! ## A batch -/

/-- What holds of a consumer to which the entries `came` came. -/
structure Holds (came : List LogTraceEntry) (c : LogTraceConsumer) : Prop where
  kept : c.Kept
  tally : c.Tally came
  told : c.Told
  accepted : c.accepted <:+ c.stored

theorem Kept.of_eq (kept : c.Kept) (entries : c'.entries = c.entries)
    (accepted : c'.accepted = c.accepted) (maxEntries : c'.maxEntries = c.maxEntries) :
    c'.Kept := by
  unfold Kept capacity at *
  rw [entries, accepted, maxEntries]
  exact kept

theorem Told.of_eq (h : c.Told) (heard : c'.heard = c.heard) (stored : c.stored ⊆ c'.stored)
    (handlers : c'.handlers = c.handlers) : c'.Told where
  stored p mem := stored (h.stored p (heard ▸ mem))
  once handler := by
    rw [told, heard]
    exact h.once handler
  handlers := handlers ▸ h.handlers

theorem suffix_reacted (reacted : c.Reacted c') (h : c.accepted <:+ c.stored) :
    c'.accepted <:+ c'.stored := by
  rw [reacted.stored]
  rcases reacted.contents with ⟨-, accepted⟩ | ⟨-, accepted⟩
  · rw [accepted]
    exact h
  · rw [accepted]
    exact List.nil_suffix

theorem Holds.call (h : c.Holds came) (a : LogTraceCall) : (c.call a).Holds came where
  kept := h.kept.reacted (reacted_call c a)
  tally := h.tally.reacted (reacted_call c a)
  told := h.told.calls [a]
  accepted := suffix_reacted (reacted_call c a) h.accepted

/-- An entry that is stored is one no handler was told of. -/
theorem Holds.store (h : c.Holds came) (fresh : entry.seq ∉ (c.stateOf entry.source).seen)
    (above : entry.below c.minLevel = false) :
    ((c.account entry).store entry).Holds (came ++ [entry]) := by
  refine ⟨?_, ?_, ?_, ?_⟩
  · exact kept_store (h.kept.of_eq rfl rfl rfl) entry
  · have stored : ((c.account entry).store entry).stored =
        c.stored ++ if entry.below c.minLevel then [] else [entry] := by
      rw [above]
      rfl
    exact h.tally.account fresh stored rfl rfl
  · exact h.told.of_eq rfl (List.subset_append_left _ _) rfl
  · obtain ⟨before, eq⟩ := h.accepted
    exact ⟨before, by rw [LogTraceConsumer.store, ← List.append_assoc]; exact congrArg (· ++ _) eq⟩

theorem Holds.untold (h : c.Holds came) (fresh : entry.seq ∉ (c.stateOf entry.source).seen)
    (handler : Nat) : entry.key ∉ (c.told handler).map LogTraceEntry.key := by
  intro mem
  obtain ⟨e, told, same⟩ := List.mem_map.mp mem
  obtain ⟨pair, heard, rfl⟩ := List.mem_map.mp told
  have stored := h.told.stored pair (List.mem_of_mem_filter heard)
  rw [h.tally.stored] at stored
  apply fresh ((h.tally.seen_iff entry).mpr _)
  exact same ▸ List.mem_map_of_mem (List.mem_of_mem_filter stored)

theorem examine_known (known : entry.seq ∈ (c.stateOf entry.source).seen) :
    c.examine react entry = (c, true) := if_pos known

theorem examine_low (fresh : entry.seq ∉ (c.stateOf entry.source).seen)
    (low : entry.below c.minLevel = true) :
    c.examine react entry = (c.account entry, true) := (if_neg fresh).trans (if_pos low)

theorem examine_stored (fresh : entry.seq ∉ (c.stateOf entry.source).seen)
    (above : entry.below c.minLevel = false) :
    c.examine react entry = notify react entry ((c.account entry).store entry) c.handlers :=
  (if_neg fresh).trans (if_neg (Bool.eq_false_iff.mp above))

theorem Holds.examine (h : c.Holds came) (entry : LogTraceEntry)
    (react : Nat → LogTraceEntry → LogTraceReaction) :
    (c.examine react entry).1.Holds (came ++ [entry]) := by
  by_cases known : entry.seq ∈ (c.stateOf entry.source).seen
  · rw [examine_known known]
    exact ⟨h.kept, h.tally.again known, h.told, h.accepted⟩
  · cases low : entry.below c.minLevel with
    | true =>
      have stored : (c.account entry).stored =
          c.stored ++ if entry.below c.minLevel then [] else [entry] := by
        rw [if_pos low]
        exact (List.append_nil _).symm
      rw [examine_low known low]
      exact ⟨h.kept.of_eq rfl rfl rfl, h.tally.account known stored rfl rfl,
        h.told.of_eq rfl (List.Subset.refl _) rfl, h.accepted⟩
    | false =>
      have stored := h.store known low
      have reacted := reacted_notify react entry ((c.account entry).store entry) c.handlers
      rw [examine_stored known low]
      refine ⟨stored.kept.reacted reacted, stored.tally.reacted reacted, ?_,
        suffix_reacted reacted stored.accepted⟩
      apply told_notify entry h.told.handlers stored.told
      · exact List.mem_append_right _ (List.mem_singleton_self entry)
      · intro handler _
        exact h.untold known handler

/-- No handler throws. -/
def Calm (react : Nat → LogTraceEntry → LogTraceReaction) : Prop :=
  ∀ handler entry, (react handler entry).throws = false

theorem notify_calm (calm : Calm react) (entry : LogTraceEntry) (c : LogTraceConsumer)
    (handlers : List Nat) : (notify react entry c handlers).2 = true := by
  induction handlers generalizing c with
  | nil => rfl
  | cons handler rest ih =>
    simp only [notify, calm handler entry, Bool.false_eq_true, if_false]
    exact ih _

theorem examine_calm (calm : Calm react) (entry : LogTraceEntry) (c : LogTraceConsumer) :
    (c.examine react entry).2 = true := by
  by_cases known : entry.seq ∈ (c.stateOf entry.source).seen
  · rw [examine_known known]
  · cases low : entry.below c.minLevel with
    | true => rw [examine_low known low]
    | false =>
      rw [examine_stored known low]
      exact notify_calm calm entry _ _

theorem Holds.examineAll (calm : Calm react) (h : c.Holds came) (entries : List LogTraceEntry) :
    (examineAll react c entries).Holds (came ++ entries) := by
  induction entries generalizing c came with
  | nil => rwa [List.append_nil]
  | cons entry rest ih =>
    simp only [LogTraceConsumer.examineAll, examine_calm calm entry c, if_true]
    rw [List.append_cons]
    exact ih (h.examine entry react)

theorem frame_examine (react : Nat → LogTraceEntry → LogTraceReaction) (entry : LogTraceEntry)
    (c : LogTraceConsumer) :
    (c.examine react entry).1.received = c.received ∧
      (c.examine react entry).1.minLevel = c.minLevel ∧
      (c.examine react entry).1.maxEntries = c.maxEntries := by
  by_cases known : entry.seq ∈ (c.stateOf entry.source).seen
  · rw [examine_known known]
    exact ⟨rfl, rfl, rfl⟩
  · cases low : entry.below c.minLevel with
    | true =>
      rw [examine_low known low]
      exact ⟨rfl, rfl, rfl⟩
    | false =>
      have reacted := reacted_notify react entry ((c.account entry).store entry) c.handlers
      rw [examine_stored known low]
      exact ⟨reacted.received, reacted.minLevel, reacted.maxEntries⟩

theorem frame_examineAll (react : Nat → LogTraceEntry → LogTraceReaction)
    (entries : List LogTraceEntry) (c : LogTraceConsumer) :
    (LogTraceConsumer.examineAll react c entries).received = c.received ∧
      (LogTraceConsumer.examineAll react c entries).minLevel = c.minLevel ∧
      (LogTraceConsumer.examineAll react c entries).maxEntries = c.maxEntries := by
  induction entries generalizing c with
  | nil => exact ⟨rfl, rfl, rfl⟩
  | cons entry rest ih =>
    obtain ⟨received, minLevel, maxEntries⟩ := frame_examine react entry c
    simp only [LogTraceConsumer.examineAll]
    split
    · obtain ⟨received', minLevel', maxEntries'⟩ := ih (c.examine react entry).1
      exact ⟨received'.trans received, minLevel'.trans minLevel, maxEntries'.trans maxEntries⟩
    · exact ⟨received, minLevel, maxEntries⟩

theorem Holds.receive (calm : Calm react) (h : c.Holds c.received) (batch : LogTraceBatch) :
    (c.receive react batch).Holds (c.receive react batch).received := by
  have same : ∀ source,
      { c with
        sources := c.sources.set batch.source (c.stateOf batch.source)
        received := c.received ++ batch.entries }.stateOf source = c.stateOf source := by
    intro source
    simp only [stateOf, Dict.get?_set]
    split
    · rename_i own
      rw [own, Option.getD_some]
    · rfl
  unfold LogTraceConsumer.receive
  rw [(frame_examineAll _ _ _).1]
  apply Holds.examineAll calm
  refine ⟨h.kept.of_eq rfl rfl rfl, ⟨fun source => ?_, fun source n => ?_, fun source => ?_, ?_⟩,
    h.told.of_eq rfl (List.Subset.refl _) rfl, h.accepted⟩
  · rw [same]
    exact h.tally.nodup source
  · rw [same]
    exact h.tally.seen source n
  · rw [same]
    exact h.tally.maxSeq source
  · exact h.tally.stored

/-! ## The loss -/

/-- The numbers that came from a source. -/
def seqsOf (came : List LogTraceEntry) (source : JSString) : Finset Nat :=
  ((came.filter fun e => e.source = source).map LogTraceEntry.seq).toFinset

theorem mem_seqsOf {source : JSString} {n : Nat} :
    n ∈ seqsOf came source ↔ (source, n) ∈ came.map LogTraceEntry.key := by
  simp only [seqsOf, List.mem_toFinset, List.mem_map, List.mem_filter, decide_eq_true_eq,
    LogTraceEntry.key, Prod.mk.injEq]
  constructor
  · rintro ⟨e, ⟨mem, own⟩, seq⟩
    exact ⟨e, mem, own, seq⟩
  · rintro ⟨e, mem, own, seq⟩
    exact ⟨e, ⟨mem, own⟩, seq⟩

theorem Tally.seqs (h : c.Tally came) (source : JSString) :
    (c.stateOf source).seen.toFinset = seqsOf came source := by
  ext n
  rw [List.mem_toFinset, h.seen, mem_seqsOf]

theorem Tally.maxSeq_eq (h : c.Tally came) (source : JSString) :
    (c.stateOf source).maxSeq = (seqsOf came source).sup id := by
  rw [← h.seqs, h.maxSeq]
  exact List.foldr_sup_eq_sup_toFinset (c.stateOf source).seen

theorem Tally.length_eq (h : c.Tally came) (source : JSString) :
    (c.stateOf source).seen.length = (seqsOf came source).card := by
  rw [← h.seqs, List.toFinset_card_of_nodup (h.nodup source)]

/-- The numbers start at one. -/
theorem card_seqsOf_le (came : List LogTraceEntry) (source : JSString) :
    (seqsOf came source).card ≤ (seqsOf came source).sup id := by
  have within : seqsOf came source ⊆ Finset.Icc 1 ((seqsOf came source).sup id) := by
    intro n mem
    have high : n ≤ (seqsOf came source).sup id := Finset.le_sup (f := id) mem
    obtain ⟨e, -, same⟩ := List.mem_map.mp (mem_seqsOf.mp mem)
    have low := e.pos
    rw [(Prod.mk.inj same).2] at low
    exact Finset.mem_Icc.mpr ⟨low, high⟩
  have le := Finset.card_le_card within
  rwa [Nat.card_Icc, Nat.add_sub_cancel] at le

theorem gapCount_eq (h : c.Tally came) :
    (c.gapCount : Int) = ∑ source ∈ (came.map LogTraceEntry.source).toFinset,
      (((seqsOf came source).sup id : Nat) - ((seqsOf came source).card : Int)) := by
  have gap : ∀ source, (c.stateOf source).maxSeq - (c.stateOf source).seen.length =
      (seqsOf came source).sup id - (seqsOf came source).card := fun source => by
    rw [h.maxSeq_eq, h.length_eq]
  have keys : c.gapCount = ∑ source ∈ c.sources.keys.toFinset,
      ((seqsOf came source).sup id - (seqsOf came source).card) := by
    rw [Dict.keys, List.sum_toFinset _ c.sources.nodup, gapCount, List.map_map]
    congr 1
    apply List.map_congr_left
    intro e mem
    rw [Function.comp_apply, ← gap, stateOf, Dict.get?_eq_some.mpr mem, Option.getD_some]
  have came_keys : (came.map LogTraceEntry.source).toFinset ⊆ c.sources.keys.toFinset := by
    intro source mem
    obtain ⟨e, came_e, rfl⟩ := List.mem_map.mp (List.mem_toFinset.mp mem)
    have seen := (h.seen e.source e.seq).mpr (List.mem_map_of_mem came_e)
    rw [List.mem_toFinset, Dict.mem_keys]
    cases known : c.sources.get? e.source with
    | some state => exact ⟨state, rfl⟩
    | none => simp [stateOf, known] at seen
  have none : ∀ source ∈ c.sources.keys.toFinset,
      source ∉ (came.map LogTraceEntry.source).toFinset →
      (seqsOf came source).sup id - (seqsOf came source).card = 0 := by
    intro source _ not
    have empty : seqsOf came source = ∅ := by
      apply Finset.eq_empty_of_forall_notMem
      intro n mem
      obtain ⟨e, mem, same⟩ := List.mem_map.mp (mem_seqsOf.mp mem)
      apply not (List.mem_toFinset.mpr _)
      exact (Prod.mk.inj same).1 ▸ List.mem_map_of_mem mem
    rw [empty]
    rfl
  rw [keys, ← Finset.sum_subset came_keys none, Nat.cast_sum]
  apply Finset.sum_congr rfl
  intro source _
  exact Nat.cast_sub (card_seqsOf_le came source)

/-! ## Over a run -/

/-- No handler throws as the batch comes. -/
def Quiet (_ : LogTraceConsumer) : LogTraceEvent → Prop
  | .message _ react => Calm react
  | .call _ => True

variable {e : LogTraceEvent} {min : LogTraceLevel} {most : ℚ}

/-- The options are as given, and what holds of the entries that came. -/
structure Lawful (min : LogTraceLevel) (most : ℚ) (c : LogTraceConsumer) : Prop where
  minLevel : c.minLevel = min
  maxEntries : c.maxEntries = most
  holds : c.Holds c.received

theorem lawful_create (typePrefix : Option JSString) (min : Option LogTraceLevel)
    (most : Option ℚ) :
    (create typePrefix min most).Lawful (min.getD .debug) (most.getD 1000) where
  minLevel := rfl
  maxEntries := rfl
  holds := by
    refine ⟨(greatest_nil _).symm, ⟨fun _ => List.nodup_nil, fun _ n => ?_, fun _ => rfl, rfl⟩,
      ⟨fun _ mem => (nomatch mem), fun _ => List.nodup_nil, List.nodup_nil⟩, List.suffix_refl _⟩
    constructor
    · exact fun mem => nomatch mem
    · exact fun mem => nomatch mem

theorem lawful_step (h : c.Lawful min most) (quiet : Quiet c e) (hstep : c.step e = some c') :
    c'.Lawful min most := by
  cases e with
  | message raw react =>
    obtain rfl := Option.some.inj hstep
    split
    · exact h
    · split
      · rename_i batch _
        obtain ⟨-, minLevel, maxEntries⟩ := frame_examineAll react batch.entries
          { c with
            sources := c.sources.set batch.source (c.stateOf batch.source)
            received := c.received ++ batch.entries }
        exact ⟨minLevel.trans h.minLevel, maxEntries.trans h.maxEntries,
          h.holds.receive quiet batch⟩
      · exact h
  | call a =>
    obtain rfl := Option.some.inj hstep
    have reacted := reacted_call c a
    refine ⟨reacted.minLevel.trans h.minLevel, reacted.maxEntries.trans h.maxEntries, ?_⟩
    rw [reacted.received]
    exact h.holds.call a

/-- As long as no handler throws: the listed entries are the greatest of those accepted
since the last `clear`, with the arrival order among equals; the accepted entries are first
copies at or above the level; none is stored or told twice; and `gapCount` is what lacks of
each source. -/
theorem log_contents {typePrefix : Option JSString} {min : Option LogTraceLevel}
    {most : Option ℚ} {es : List LogTraceEvent} {c : LogTraceConsumer}
    (run : Run step Quiet (create typePrefix min most) es c) :
    (c.list none none).Pairwise LogTraceEntry.Le ∧
      c.list none none = greatest LogTraceEntry.Le ⌊most.getD 1000⌋.toNat c.accepted ∧
      (∀ ts seq, ((c.list none none).filter fun e => e.ts = ts ∧ e.seq = seq) <:+
        c.accepted.filter fun e => e.ts = ts ∧ e.seq = seq) ∧
      c.accepted <:+ c.stored ∧
      c.stored = ((firstCopies c.received).filter fun e => !e.below (min.getD .debug)) ∧
      (c.stored.map LogTraceEntry.key).Nodup ∧
      (∀ handler, ((c.told handler).map LogTraceEntry.key).Nodup) ∧
      (c.gapCount : Int) = ∑ source ∈ (c.received.map LogTraceEntry.source).toFinset,
        (((seqsOf c.received source).sup id : Nat) - ((seqsOf c.received source).card : Int)) := by
  have law := run.invariant (Lawful (min.getD .debug) (most.getD 1000))
    (fun _ _ _ h quiet hstep => lawful_step h quiet hstep) (lawful_create typePrefix min most)
  have listed : c.list none none = greatest LogTraceEntry.Le ⌊most.getD 1000⌋.toNat c.accepted := by
    rw [← law.maxEntries]
    exact law.holds.kept
  have stored := law.holds.tally.stored
  rw [law.minLevel] at stored
  refine ⟨?_, listed, fun ts seq => ?_, law.holds.accepted, stored, ?_, law.holds.told.once,
    gapCount_eq law.holds.tally⟩
  · rw [listed]
    exact pairwise_greatest _ _
  · rw [listed]
    apply filter_greatest
    intro x y hx hy
    simp only [decide_eq_true_eq] at hx hy
    exact LogTraceEntry.le_iff.mpr (.inr ⟨hx.1.trans hy.1.symm, (hx.2.trans hy.2.symm).le⟩)
  · rw [stored]
    exact (nodup_firstCopies c.received).sublist (List.filter_sublist.map _)

def entryJson (ts seq : Nat) : Json :=
  .obj [(lit "level", .str (lit "info")), (lit "ts", .ofNat ts), (lit "message", .str []),
    (lit "seq", .ofNat seq)]

def batchText (source : JSString) (entries : List Json) : JSString :=
  (Json.obj [(lit "type", .str (lit "log:trace")),
    (lit "data", .obj [(lit "entries", .arr entries), (lit "source", .str source)])]).text

def silent (_ : Nat) (_ : LogTraceEntry) : LogTraceReaction := ⟨[], false⟩

def disorder : List LogTraceEvent :=
  [.call (.onEntry 0), .message (batchText (lit "a") [entryJson 30 4, entryJson 10 1]) silent,
    .message (batchText (lit "b") [entryJson 10 1]) silent, .call .clear,
    .message (batchText (lit "a") [entryJson 30 4, entryJson 20 2]) silent,
    .message (batchText (lit "b") [entryJson 20 2, entryJson 5 3]) silent]

theorem log_contents_disorder :
    ∃ c, exec step (create none none (some 2)) disorder = some c ∧
      ((c.list none none).map LogTraceEntry.key = [(lit "a", 2), (lit "b", 2)]) ∧
      c.gapCount = 1 ∧ c.list none none = greatest LogTraceEntry.Le 2 c.accepted ∧
      (c.stored.map LogTraceEntry.key).Nodup ∧
      (c.gapCount : Int) = ∑ source ∈ (c.received.map LogTraceEntry.source).toFinset,
        (((seqsOf c.received source).sup id : Nat) - ((seqsOf c.received source).card : Int)) := by
  have done : (exec step (create none none (some 2)) disorder).isSome = true := by
    decide +kernel
  obtain ⟨c, hexec⟩ := Option.isSome_iff_exists.mp done
  have run : Run step Quiet (create none none (some 2)) disorder c := by
    apply Run.of_events _ hexec
    intro e mem state
    simp only [disorder, List.mem_cons, List.not_mem_nil, or_false] at mem
    rcases mem with rfl | rfl | rfl | rfl | rfl | rfl <;> first | trivial | exact fun _ _ => rfl
  obtain ⟨-, listed, -, -, -, once, -, gaps⟩ := log_contents run
  refine ⟨c, hexec, ?_, ?_, listed, once, gaps⟩
  · exact run.read (a := [(lit "a", 2), (lit "b", 2)])
      (f := fun c => (c.list none none).map LogTraceEntry.key) (by decide +kernel)
  · exact run.read (a := 1) (f := gapCount) (by decide +kernel)

end LogTraceConsumer

end LemonModel
