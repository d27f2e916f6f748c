import LemonModel.LogTrace.Loss

/-!
# What a viewer shows of its reporters

Reporters write to one consumer, each under a source of its own. Their batches come in
any order, more than once or not at all. The consumer lists the latest of the entries
that came, each once, and `gapCount` is the number of entries that were overtaken.
-/

namespace LemonModel

open Text

namespace LogTraceReporter

variable {r r' : LogTraceReporter} {source typePrefix : JSString} {entry : Entry} {m : Message}
  {x y : LogTraceEntry} {ds : List LogTraceEvent}

/-! ## An entry on both sides -/

/-- `x` is what a consumer stores of the entry `e` of a source. -/
structure Shown (source : JSString) (e : Entry) (x : LogTraceEntry) : Prop where
  level : x.level = e.level.name
  ts : x.ts = e.ts
  seq : x.seq = e.seq
  fields : x.fields = setProp e.members (lit "source") (.str source)
  source : x.source = source

theorem Shown.unique (h : Shown source entry x) (h' : Shown source entry y) : x = y :=
  LogTraceEntry.ext (h.level.trans h'.level.symm) (h.ts.trans h'.ts.symm)
    (h.seq.trans h'.seq.symm) (h.source.trans h'.source.symm) (h.fields.trans h'.fields.symm)

theorem Shown.below_iff (h : Shown source entry x) (min : LogTraceLevel) :
    x.below min = false ↔ min.weight ≤ entry.level.weight := by
  have weight : x.weight = some entry.level.weight := by
    rw [LogTraceEntry.weight, h.level, level_name]
    rfl
  rw [LogTraceEntry.below, weight]
  simp

theorem shown_of_read (read : isLogTraceEntry source entry.document = some (some x)) :
    Shown source entry x := by
  have level : entry.document.prop? (lit "level") = some (.str entry.level.name) := by
    rw [Entry.document, Entry.members, prop?_cons, if_pos rfl]
  have ts : numField entry.document (lit "ts") = some (entry.ts : ℚ) := by
    rw [numField, Entry.document, Entry.members, prop?_cons, if_neg (by decide), prop?_cons,
      if_pos rfl]
    exact congrArg some (Decimal.value_ofNat entry.ts)
  have seq : natField entry.document (lit "seq") = some entry.seq := by
    rw [natField, Entry.document, Entry.members, prop?_cons, if_neg (by decide), prop?_cons,
      if_neg (by decide), prop?_cons, if_neg (by decide), prop?_cons, if_pos rfl]
    exact Json.nat?_ofNat _
  unfold isLogTraceEntry at read
  rw [Entry.document] at read level ts seq
  simp only [level, propertyKey, Option.map_some, Option.some.injEq] at read
  simp only [acceptEntry, bind, Option.bind_eq_some_iff] at read
  obtain ⟨_, -, ts', hts, _, -, seq', hseq, read⟩ := read
  obtain rfl := Option.some.inj (ts.symm.trans hts)
  obtain rfl := Option.some.inj (seq.symm.trans hseq)
  split at read
  · obtain rfl := Option.some.inj read
    exact ⟨rfl, rfl, rfl, rfl, rfl⟩
  · cases read

theorem mem_readEntries {entries : List Entry} (pos : ∀ e ∈ entries, 0 < e.seq) :
    x ∈ readEntries source (entries.map Entry.document) ↔ ∃ e ∈ entries, Shown source e x := by
  induction entries with
  | nil => simp [readEntries]
  | cons entry entries ih =>
    obtain ⟨read, checked, -⟩ := entry_read source (pos entry List.mem_cons_self)
    have shown := shown_of_read checked
    have rest := ih fun e he => pos e (List.mem_cons_of_mem _ he)
    rw [List.map_cons, readEntries, checked]
    simp only [List.mem_cons, rest, exists_eq_or_imp]
    constructor
    · rintro (rfl | later)
      · exact .inl shown
      · exact .inr later
    · rintro (here | later)
      · exact .inl (here.unique shown)
      · exact .inr later

/-- The entries that the message of a batch brings. -/
theorem mem_message (listens : Listens typePrefix m.type) (pos : ∀ e ∈ m.entries, 0 < e.seq)
    {react : Nat → LogTraceEntry → LogTraceReaction} :
    x ∈ LogTraceConsumer.brought typePrefix (.message m.raw react) ↔
      ∃ e ∈ m.entries, Shown m.source e x := by
  obtain ⟨batch, read, own, -⟩ := message_read listens pos
  have data : m.document.prop? (lit "data") = some (.obj
      [(lit "entries", .arr (m.entries.map Entry.document)), (lit "source", .str m.source)]) := by
    rw [Message.document, prop?_cons, if_neg (by decide), prop?_cons, if_pos rfl]
  have parsed : parse m.raw = some m.document := parse_text m.document (message_wf m)
  have entries : batch.entries = readEntries m.source (m.entries.map Entry.document) := by
    have fields := read
    simp only [readBatch, parsed, data, bind, Option.bind_eq_some_iff, Option.bind_some] at fields
    obtain ⟨_, -, _, -, _, -, source, hsource, found⟩ := fields
    obtain rfl : m.source = source := Option.some.inj hsource
    exact congrArg LogTraceBatch.entries (Option.some.inj found).symm
  rw [LogTraceConsumer.brought, read, Option.map_some, Option.getD_some, entries]
  exact mem_readEntries pos

/-! ## What comes of the reporters -/

/-- A reporter whose calls have a `json` that can be printed. -/
def Logged (r : LogTraceReporter) : Prop :=
  ∃ options source es, Run step Serializable (create options source) es r

theorem Logged.labelled (h : r.Logged) : r.Labelled := by
  obtain ⟨options, source, es, run⟩ := h
  exact exec_invariant Labelled (fun _ _ _ => labelled_step) run.exec_eq fun _ mem => (nomatch mem)

/-- What was sent is numbered from one on. -/
theorem Logged.numbers (h : r.Logged) :
    ∃ n, (r.sent.flatMap Message.entries).map Entry.seq = List.range' 1 n := by
  obtain ⟨options, source, es, run⟩ := h
  obtain ⟨n, numbers⟩ := entries_numbered run
  rw [LogTraceReporter.entries, List.map_append] at numbers
  obtain ⟨k, -, sent, -⟩ := List.range'_eq_append_iff.mp numbers.symm
  exact ⟨k, sent⟩

theorem Logged.pos (h : r.Logged) : ∀ m ∈ r.sent, ∀ e ∈ m.entries, 0 < e.seq := by
  intro m hm e he
  obtain ⟨n, numbers⟩ := h.numbers
  have mem : e.seq ∈ (r.sent.flatMap Message.entries).map Entry.seq :=
    List.mem_map_of_mem (List.mem_flatMap.mpr ⟨m, hm, he⟩)
  rw [numbers, List.mem_range'_1] at mem
  omega

/-- An entry is known by its number. -/
theorem Logged.seq_inj (h : r.Logged) {e e' : Entry} (he : e ∈ r.sent.flatMap Message.entries)
    (he' : e' ∈ r.sent.flatMap Message.entries) (same : e.seq = e'.seq) : e = e' := by
  obtain ⟨n, numbers⟩ := h.numbers
  have nodup : ((r.sent.flatMap Message.entries).map Entry.seq).Nodup := by
    rw [numbers]
    exact List.nodup_range'
  exact List.inj_on_of_nodup_map nodup he he' same

/-- A later entry has a greater number. -/
theorem Logged.earlier (h : r.Logged) (timely : r.entries.Pairwise fun e e' => e.ts ≤ e'.ts)
    {e e' : Entry} (he : e ∈ r.sent.flatMap Message.entries)
    (he' : e' ∈ r.sent.flatMap Message.entries) (less : e.ts < e'.ts) : e.seq < e'.seq := by
  obtain ⟨n, numbers⟩ := h.numbers
  have rising : (r.sent.flatMap Message.entries).Pairwise fun e e' => e.seq < e'.seq := by
    rw [← List.pairwise_map, numbers]
    exact List.pairwise_lt_range'
  have timely := (List.pairwise_append.mp timely).1
  obtain ⟨i, hi, rfl⟩ := List.getElem_of_mem he
  obtain ⟨j, hj, rfl⟩ := List.getElem_of_mem he'
  rcases Nat.lt_trichotomy i j with before | rfl | after
  · exact List.pairwise_iff_getElem.mp rising i j hi hj before
  · omega
  · have back := List.pairwise_iff_getElem.mp timely j i hj hi after
    omega

theorem shown_in_order (h : r.Logged)
    (timely : r.entries.Pairwise fun e e' => e.ts ≤ e'.ts) {e e' : Entry}
    (he : e ∈ r.sent.flatMap Message.entries) (he' : e' ∈ r.sent.flatMap Message.entries)
    (shown : Shown r.source e x) (shown' : Shown r.source e' y) (le : x.Le y)
    (apart : x.key ≠ y.key) : x.seq < y.seq := by
  rcases LogTraceEntry.le_iff.mp le with earlier | ⟨-, le⟩
  · rw [shown.ts, shown'.ts, Nat.cast_lt] at earlier
    rw [shown.seq, shown'.seq]
    exact h.earlier timely he he' earlier
  · have ne : x.seq ≠ y.seq := fun same =>
      apart (Prod.ext (shown.source.trans shown'.source.symm) same)
    omega

/-- The batch of an entry came. -/
def Came (ds : List LogTraceEvent) (r : LogTraceReporter) (e : Entry) : Prop :=
  ∃ m ∈ r.sent, e ∈ m.entries ∧ ∃ react, .message m.raw react ∈ ds

theorem Came.sent (h : Came ds r entry) : entry ∈ r.sent.flatMap Message.entries := by
  obtain ⟨m, hm, he, -⟩ := h
  exact List.mem_flatMap.mpr ⟨m, hm, he⟩

/-- The reporters of a consumer. -/
structure Reporters (typePrefix : JSString) (rs : List LogTraceReporter) : Prop where
  logged : ∀ r ∈ rs, r.Logged
  listens : ∀ r ∈ rs, Listens typePrefix r.type
  apart : (rs.map LogTraceReporter.source).Nodup

/-- Whatever the consumer reads is a message of a reporter. -/
def Relayed (typePrefix : JSString) (rs : List LogTraceReporter) (ds : List LogTraceEvent) : Prop :=
  ∀ raw react, .message raw react ∈ ds → readBatch typePrefix raw = none ∨
    ∃ r ∈ rs, ∃ m ∈ r.sent, m.raw = raw

variable {rs : List LogTraceReporter}

theorem Reporters.same (h : Reporters typePrefix rs) (hr : r ∈ rs) (hr' : r' ∈ rs)
    (same : r.source = r'.source) : r = r' := List.inj_on_of_nodup_map h.apart hr hr' same

/-- What came are the entries whose batch came. -/
theorem mem_came (h : Reporters typePrefix rs) (relayed : Relayed typePrefix rs ds) :
    x ∈ ds.flatMap (LogTraceConsumer.brought typePrefix) ↔
      ∃ r ∈ rs, ∃ e, Came ds r e ∧ Shown r.source e x := by
  have read : ∀ r ∈ rs, ∀ m ∈ r.sent, ∀ react,
      x ∈ LogTraceConsumer.brought typePrefix (.message m.raw react) ↔
        ∃ e ∈ m.entries, Shown r.source e x := by
    intro r hr m hm react
    obtain ⟨type, source⟩ := (h.logged r hr).labelled m hm
    have listens := h.listens r hr
    rw [← type] at listens
    rw [← source]
    exact mem_message listens ((h.logged r hr).pos m hm)
  rw [List.mem_flatMap]
  constructor
  · rintro ⟨event, mem, brought⟩
    cases event with
    | call a => cases brought
    | message raw react =>
      rcases relayed raw react mem with unread | ⟨r, hr, m, hm, rfl⟩
      · rw [LogTraceConsumer.brought, unread] at brought
        cases brought
      · obtain ⟨e, he, shown⟩ := (read r hr m hm react).mp brought
        exact ⟨r, hr, e, ⟨m, hm, he, react, mem⟩, shown⟩
  · rintro ⟨r, hr, e, ⟨m, hm, he, react, mem⟩, shown⟩
    exact ⟨_, mem, (read r hr m hm react).mpr ⟨e, he, shown⟩⟩

/-- An entry that came under this key. -/
theorem came_key (h : Reporters typePrefix rs) (relayed : Relayed typePrefix rs ds) (hr : r ∈ rs)
    (n : Nat) :
    (r.source, n) ∈ (ds.flatMap (LogTraceConsumer.brought typePrefix)).map LogTraceEntry.key ↔
      ∃ e, Came ds r e ∧ e.seq = n := by
  rw [List.mem_map]
  constructor
  · rintro ⟨x, mem, key⟩
    obtain ⟨source, seq⟩ := Prod.mk.inj key
    obtain ⟨r', hr', e, came, shown⟩ := (mem_came h relayed).mp mem
    obtain rfl := h.same hr hr' (source.symm.trans shown.source)
    exact ⟨e, came, shown.seq.symm.trans seq⟩
  · rintro ⟨e, came, rfl⟩
    obtain ⟨m, hm, he, event⟩ := came
    obtain ⟨x, checked, source, seq⟩ := entry_read r.source ((h.logged r hr).pos m hm e he)
    refine ⟨x, (mem_came h relayed).mpr ⟨r, hr, e, ⟨m, hm, he, event⟩, shown_of_read checked⟩, ?_⟩
    exact Prod.ext source seq

theorem source_of_came (h : Reporters typePrefix rs) (relayed : Relayed typePrefix rs ds) {n : Nat}
    (mem : (source, n) ∈
      (ds.flatMap (LogTraceConsumer.brought typePrefix)).map LogTraceEntry.key) :
    ∃ r ∈ rs, r.source = source := by
  obtain ⟨x, mem, key⟩ := List.mem_map.mp mem
  obtain ⟨r, hr, e, -, shown⟩ := (mem_came h relayed).mp mem
  exact ⟨r, hr, shown.source.symm.trans (Prod.mk.inj key).1⟩

/-- What is missing of the keys are the entries that were overtaken. -/
theorem overtaken_iff (h : Reporters typePrefix rs) (relayed : Relayed typePrefix rs ds) {n : Nat} :
    (0 < n ∧ (source, n) ∉
        (ds.flatMap (LogTraceConsumer.brought typePrefix)).map LogTraceEntry.key ∧
      ∃ k, n < k ∧ (source, k) ∈
        (ds.flatMap (LogTraceConsumer.brought typePrefix)).map LogTraceEntry.key) ↔
      ∃ r ∈ rs, ∃ e ∈ r.sent.flatMap Message.entries, (source, n) = (r.source, e.seq) ∧
        ¬ Came ds r e ∧ ∃ e', Came ds r e' ∧ e.seq < e'.seq := by
  constructor
  · rintro ⟨pos, absent, k, more, mem⟩
    obtain ⟨r, hr, rfl⟩ := source_of_came h relayed mem
    obtain ⟨e', came, rfl⟩ := (came_key h relayed hr k).mp mem
    obtain ⟨last, numbers⟩ := (h.logged r hr).numbers
    have high : e'.seq ∈ (r.sent.flatMap Message.entries).map Entry.seq :=
      List.mem_map_of_mem came.sent
    have low : n ∈ (r.sent.flatMap Message.entries).map Entry.seq := by
      rw [numbers, List.mem_range'_1] at high ⊢
      omega
    obtain ⟨e, sent, rfl⟩ := List.mem_map.mp low
    exact ⟨r, hr, e, sent, rfl, fun came => absent ((came_key h relayed hr _).mpr ⟨e, came, rfl⟩),
      e', came, more⟩
  · rintro ⟨r, hr, e, sent, eq, absent, e', came, more⟩
    obtain ⟨rfl, rfl⟩ := Prod.mk.inj eq
    obtain ⟨m, hm, he⟩ := List.mem_flatMap.mp sent
    refine ⟨(h.logged r hr).pos m hm e he, fun mem => ?_, e'.seq, more,
      (came_key h relayed hr _).mpr ⟨e', came, rfl⟩⟩
    obtain ⟨e'', came', same⟩ := (came_key h relayed hr _).mp mem
    rw [(h.logged r hr).seq_inj came'.sent sent same] at came'
    exact absent came'

/-- What came under a key is one entry. -/
theorem came_inj (h : Reporters typePrefix rs) (relayed : Relayed typePrefix rs ds)
    (hx : x ∈ ds.flatMap (LogTraceConsumer.brought typePrefix))
    (hy : y ∈ ds.flatMap (LogTraceConsumer.brought typePrefix)) (same : x.key = y.key) : x = y := by
  obtain ⟨source, seq⟩ := Prod.mk.inj same
  obtain ⟨r, hr, e, came, shown⟩ := (mem_came h relayed).mp hx
  obtain ⟨r', hr', e', came', shown'⟩ := (mem_came h relayed).mp hy
  obtain rfl := h.same hr hr' (shown.source.symm.trans (source.trans shown'.source))
  obtain rfl := (h.logged r hr).seq_inj came.sent came'.sent
    (shown.seq.symm.trans (seq.trans shown'.seq))
  exact shown.unique shown'

end LogTraceReporter

namespace LogTraceConsumer

variable {c c' : LogTraceConsumer} {react : Nat → LogTraceEntry → LogTraceReaction}
  {came l : List LogTraceEntry} {x : LogTraceEntry}

/-! ## Only an overflow drops an entry -/

/-- No handler throws, and nobody clears. -/
def Keeps (c : LogTraceConsumer) : LogTraceEvent → Prop
  | .message raw react => Quiet c (.message raw react) ∧
      ∀ handler entry, .clear ∉ (react handler entry).calls
  | .call a => a ≠ .clear

theorem Keeps.quiet {e : LogTraceEvent} (h : Keeps c e) : Quiet c e := by
  cases e with
  | message raw react => exact h.1
  | call a => trivial

def Whole (c : LogTraceConsumer) : Prop := c.accepted = c.stored

theorem whole_call {a : LogTraceCall} (h : c.Whole) (keeps : a ≠ .clear) : (c.call a).Whole := by
  cases a with
  | onEntry handler =>
    simp only [call]
    split
    · exact h
    · exact h
  | unsubscribe handler => exact h
  | clear => exact absurd rfl keeps
  | close => exact h

theorem whole_calls {calls : List LogTraceCall} (h : c.Whole) (keeps : .clear ∉ calls) :
    (calls.foldl call c).Whole := by
  induction calls generalizing c with
  | nil => exact h
  | cons a calls ih =>
    rw [List.mem_cons, not_or] at keeps
    exact ih (whole_call h (Ne.symm keeps.1)) keeps.2

theorem whole_notify (keeps : ∀ handler entry, .clear ∉ (react handler entry).calls)
    (entry : LogTraceEntry) (handlers : List Nat) (h : c.Whole) :
    (notify react entry c handlers).1.Whole := by
  induction handlers generalizing c with
  | nil => exact h
  | cons handler rest ih =>
    have told : { c with heard := (handler, entry) :: c.heard }.Whole := h
    have after := whole_calls told (keeps handler entry)
    simp only [notify]
    split
    · exact after
    · exact ih after

theorem whole_examineAll (keeps : ∀ handler entry, .clear ∉ (react handler entry).calls)
    (entries : List LogTraceEntry) (h : c.Whole) : (examineAll react c entries).Whole := by
  induction entries generalizing c with
  | nil => exact h
  | cons entry rest ih =>
    have first : (c.examine react entry).1.Whole := by
      simp only [examine]
      split
      · exact h
      · split
        · exact h
        · exact whole_notify keeps entry _ (congrArg (· ++ [entry]) h)
    simp only [examineAll]
    split
    · exact ih first
    · exact first

theorem whole_step {e : LogTraceEvent} (h : c.Whole) (keeps : Keeps c e)
    (hstep : c.step e = some c') : c'.Whole := by
  cases e with
  | message raw react =>
    obtain rfl := Option.some.inj hstep
    split
    · exact h
    · split
      · exact whole_examineAll keeps.2 _ h
      · exact h
  | call a =>
    obtain rfl := Option.some.inj hstep
    exact whole_call h keeps

/-! ## What is first is there -/

theorem firstCopies_subset (l : List LogTraceEntry) : firstCopies l ⊆ l := by
  induction l using List.reverseRecOn with
  | nil => exact List.Subset.refl _
  | append_singleton l e ih =>
    rw [firstCopies_append]
    split
    · exact List.Subset.trans ih (List.subset_append_left _ _)
    · exact List.append_subset.mpr ⟨List.Subset.trans ih (List.subset_append_left _ _),
        List.subset_append_right _ _⟩

/-- If an entry is known by its key, nothing that came is left out. -/
theorem mem_firstCopies (inj : ∀ x ∈ l, ∀ y ∈ l, x.key = y.key → x = y) :
    x ∈ firstCopies l ↔ x ∈ l := by
  constructor
  · exact fun mem => firstCopies_subset l mem
  · intro mem
    obtain ⟨y, hy, same⟩ :=
      List.mem_map.mp ((key_firstCopies l x.key).mpr (List.mem_map_of_mem mem))
    rw [inj x mem y (firstCopies_subset l hy) same.symm]
    exact hy

/-! ## The gaps -/

/-- What `gapCount` counts: the numbers that are missing below one that came. -/
theorem gapCount_missing (h : c.Tally came) :
    ∃ missing : Finset (JSString × Nat), c.gapCount = missing.card ∧ ∀ source n,
      (source, n) ∈ missing ↔ 0 < n ∧ (source, n) ∉ came.map LogTraceEntry.key ∧
        ∃ k, n < k ∧ (source, k) ∈ came.map LogTraceEntry.key := by
  have low : ∀ source, seqsOf came source ⊆ Finset.Icc 1 ((seqsOf came source).sup id) := by
    intro source n mem
    obtain ⟨e, -, key⟩ := List.mem_map.mp (mem_seqsOf.mp mem)
    have pos := e.pos
    rw [(Prod.mk.inj key).2] at pos
    exact Finset.mem_Icc.mpr ⟨pos, Finset.le_sup (f := id) mem⟩
  let missing := (came.map LogTraceEntry.source).toFinset.biUnion fun source =>
    (Finset.Icc 1 ((seqsOf came source).sup id) \ seqsOf came source).image (Prod.mk source)
  refine ⟨missing, ?_, fun source n => ?_⟩
  · have apart : ((came.map LogTraceEntry.source).toFinset : Set JSString).PairwiseDisjoint
        fun source => (Finset.Icc 1 ((seqsOf came source).sup id) \ seqsOf came source).image
          (Prod.mk source) := by
      intro a _ b _ ne
      rw [Function.onFun, Finset.disjoint_left]
      intro p ha hb
      obtain ⟨n, -, rfl⟩ := Finset.mem_image.mp ha
      obtain ⟨m, -, eq⟩ := Finset.mem_image.mp hb
      exact ne (Prod.mk.inj eq).1.symm
    have sum := gapCount_eq h
    have each : ∀ source, (((seqsOf came source).sup id : Nat) : Int) - (seqsOf came source).card =
        ((Finset.Icc 1 ((seqsOf came source).sup id) \ seqsOf came source).image
          (Prod.mk source)).card := by
      intro source
      rw [Finset.card_image_of_injective _ (Prod.mk_right_injective source),
        Finset.card_sdiff_of_subset (low source), Nat.card_Icc, Nat.add_sub_cancel,
        Nat.cast_sub (card_seqsOf_le came source)]
    simp only [each] at sum
    rw [← Nat.cast_sum, ← Finset.card_biUnion apart] at sum
    exact_mod_cast sum
  · constructor
    · intro mem
      obtain ⟨source', -, mem⟩ := Finset.mem_biUnion.mp mem
      obtain ⟨n', lacking, eq⟩ := Finset.mem_image.mp mem
      obtain ⟨rfl, rfl⟩ := Prod.mk.inj eq
      obtain ⟨between, fresh⟩ := Finset.mem_sdiff.mp lacking
      obtain ⟨pos, le⟩ := Finset.mem_Icc.mp between
      have some_ : (seqsOf came source').Nonempty := by
        rw [Finset.nonempty_iff_ne_empty]
        intro empty
        rw [empty, Finset.sup_empty, Nat.bot_eq_zero] at le
        omega
      obtain ⟨k, hk, greatest⟩ := Finset.exists_mem_eq_sup _ some_ id
      have ne : n' ≠ k := fun same => fresh (same ▸ hk)
      rw [greatest, id] at le
      exact ⟨pos, fun mem => fresh (mem_seqsOf.mpr mem), k, by omega, mem_seqsOf.mp hk⟩
    · rintro ⟨pos, fresh, k, more, mem⟩
      have le : k ≤ (seqsOf came source).sup id := Finset.le_sup (f := id) (mem_seqsOf.mpr mem)
      have known : source ∈ (came.map LogTraceEntry.source).toFinset := by
        obtain ⟨e, he, key⟩ := List.mem_map.mp mem
        rw [← (Prod.mk.inj key).1]
        exact List.mem_toFinset.mpr (List.mem_map_of_mem he)
      refine Finset.mem_biUnion.mpr ⟨source, known, Finset.mem_image_of_mem _ ?_⟩
      rw [Finset.mem_sdiff, Finset.mem_Icc, mem_seqsOf]
      exact ⟨by omega, fresh⟩

/-! ## The view -/

open LogTraceReporter

variable {typePrefix : Option JSString} {min : Option LogTraceLevel} {most : Option ℚ}
  {ds : List LogTraceEvent} {rs : List LogTraceReporter}

/-- What is accepted over a run in which nobody clears. -/
theorem accepted_run (run : Run step Keeps (create typePrefix min most) ds c)
    (isOpen : c.closed = false) :
    c.Lawful (min.getD .debug) (most.getD 1000) ∧
      c.received = ds.flatMap (brought (typePrefix.getD (lit "log:"))) ∧
      c.accepted = (firstCopies c.received).filter fun e => !e.below (min.getD .debug) := by
  have law := run.invariant (Lawful (min.getD .debug) (most.getD 1000))
    (fun _ _ _ h keeps hstep => lawful_step h keeps.quiet hstep) (lawful_create typePrefix min most)
  have whole := run.invariant Whole (fun _ _ _ => whole_step) rfl
  have received := (received_run run.exec_eq).2 isOpen
  refine ⟨law, received, ?_⟩
  rw [whole, law.holds.tally.stored, law.minLevel]

/-- The consumer accepts what came at its level. -/
theorem mem_accepted (run : Run step Keeps (create typePrefix min most) ds c)
    (isOpen : c.closed = false) (reporters : Reporters (typePrefix.getD (lit "log:")) rs)
    (relayed : Relayed (typePrefix.getD (lit "log:")) rs ds) :
    x ∈ c.accepted ↔ ∃ r ∈ rs, ∃ e, Came ds r e ∧ Shown r.source e x ∧
      (min.getD .debug).weight ≤ e.level.weight := by
  obtain ⟨-, received, accepted⟩ := accepted_run run isOpen
  have first : x ∈ firstCopies c.received ↔ ∃ r ∈ rs, ∃ e, Came ds r e ∧ Shown r.source e x := by
    rw [received, mem_firstCopies fun x hx y hy => came_inj reporters relayed hx hy]
    exact mem_came reporters relayed
  rw [accepted, List.mem_filter, first]
  constructor
  · rintro ⟨⟨r, hr, e, came, shown⟩, above⟩
    exact ⟨r, hr, e, came, shown, (shown.below_iff _).mp (by simpa using above)⟩
  · rintro ⟨r, hr, e, came, shown, above⟩
    exact ⟨⟨r, hr, e, came, shown⟩, by simpa using (shown.below_iff _).mpr above⟩

/-- **The viewer shows the latest.** Reporters with sources of their own write to one
consumer, and their batches come in any order, repeated or not at all. As long as no handler
throws and nobody clears, the list is in order and has nothing twice; it shows entries that
came and are at the level, and one it does not show is not later than any of the
`maxEntries` that it shows. A source whose clock does not go back is shown as it logged.
`gapCount` is the number of the entries that did not come though a later one of their source
did. -/
theorem viewer_shows_the_latest (run : Run step Keeps (create typePrefix min most) ds c)
    (isOpen : c.closed = false) (reporters : Reporters (typePrefix.getD (lit "log:")) rs)
    (relayed : Relayed (typePrefix.getD (lit "log:")) rs ds) :
    (c.list none none).Pairwise LogTraceEntry.Le ∧
      ((c.list none none).map LogTraceEntry.key).Nodup ∧
      (∀ x ∈ c.list none none, ∃ r ∈ rs, ∃ e, Came ds r e ∧ Shown r.source e x ∧
        (min.getD .debug).weight ≤ e.level.weight) ∧
      (∀ r ∈ rs, ∀ e, Came ds r e → (min.getD .debug).weight ≤ e.level.weight →
        ∃ x, Shown r.source e x ∧ (x ∈ c.list none none ∨
          (c.list none none).length = ⌊most.getD 1000⌋.toNat ∧
            ∀ y ∈ c.list none none, x.Le y)) ∧
      (∀ r ∈ rs, r.entries.Pairwise (fun e e' => e.ts ≤ e'.ts) →
        ((c.list none none).filter fun x => x.source = r.source).Pairwise
          fun x y => x.seq < y.seq) ∧
      ∃ missing : Finset (JSString × Nat), c.gapCount = missing.card ∧
        ∀ p, p ∈ missing ↔ ∃ r ∈ rs, ∃ e ∈ r.sent.flatMap Message.entries,
          p = (r.source, e.seq) ∧ ¬ Came ds r e ∧ ∃ e', Came ds r e' ∧ e.seq < e'.seq := by
  obtain ⟨law, received, accepted⟩ := accepted_run run isOpen
  have listed : c.list none none = greatest LogTraceEntry.Le ⌊most.getD 1000⌋.toNat c.accepted := by
    rw [← law.maxEntries]
    exact law.holds.kept
  have once : (c.accepted.map LogTraceEntry.key).Nodup := by
    rw [accepted]
    exact (nodup_firstCopies c.received).sublist (List.filter_sublist.map _)
  have sorted : (c.list none none).Pairwise LogTraceEntry.Le := by
    rw [listed]
    exact pairwise_greatest _ _
  have nodup : ((c.list none none).map LogTraceEntry.key).Nodup := by
    obtain ⟨kept, perm, sub⟩ := greatest_subperm (r := LogTraceEntry.Le) ⌊most.getD 1000⌋.toNat
      c.accepted
    rw [listed]
    exact (perm.map _).nodup_iff.mp (once.sublist (sub.map _))
  have shows : ∀ x ∈ c.list none none, ∃ r ∈ rs, ∃ e, Came ds r e ∧ Shown r.source e x ∧
      (min.getD .debug).weight ≤ e.level.weight := by
    intro x mem
    rw [listed] at mem
    exact (mem_accepted run isOpen reporters relayed).mp ((greatest_subperm _ _).subset mem)
  refine ⟨sorted, nodup, shows, ?_, ?_, ?_⟩
  · intro r hr e came above
    obtain ⟨m, hm, he⟩ := List.mem_flatMap.mp came.sent
    obtain ⟨x, checked, -⟩ := entry_read r.source ((reporters.logged r hr).pos m hm e he)
    have shown := shown_of_read checked
    have mem : x ∈ c.accepted :=
      (mem_accepted run isOpen reporters relayed).mpr ⟨r, hr, e, came, shown, above⟩
    refine ⟨x, shown, ?_⟩
    rw [listed]
    exact greatest_spec _ mem
  · intro r hr timely
    have apart : (c.list none none).Pairwise fun x y => x.key ≠ y.key := List.pairwise_map.mp nodup
    apply List.pairwise_filter.mpr
    apply (sorted.and apart).imp_of_mem
    intro x y hx hy both hown hown'
    obtain ⟨r₁, hr₁, e, came, shown, -⟩ := shows x hx
    obtain ⟨r₂, hr₂, e', came', shown', -⟩ := shows y hy
    obtain rfl := reporters.same hr hr₁ ((of_decide_eq_true hown).symm.trans shown.source)
    obtain rfl := reporters.same hr hr₂ ((of_decide_eq_true hown').symm.trans shown'.source)
    exact shown_in_order (reporters.logged r hr) timely came.sent came'.sent shown shown' both.1
      both.2
  · obtain ⟨missing, count, mem⟩ := gapCount_missing law.holds.tally
    refine ⟨missing, count, fun p => ?_⟩
    rw [received] at mem
    exact (mem p.1 p.2).trans (overtaken_iff reporters relayed)

/-! Two reporters: a batch of the first is lost, another one comes twice. -/

def wrote (now : Nat) (level : LogTraceLevel) : Event × (Nat → Bool) :=
  (.log ⟨now, level, lit "hi", none⟩, fun _ => false)

def firstLog : List (Event × (Nat → Bool)) := [wrote 1 .info, wrote 2 .error, wrote 4 .error]

def mingled (a b : LogTraceReporter) : List LogTraceEvent :=
  (a.sent.drop 2 ++ b.sent ++ a.sent.take 1 ++ a.sent.drop 2).map fun m => .message m.raw silent

theorem relayed_mingled (typePrefix : JSString) (a b : LogTraceReporter) :
    Relayed typePrefix [a, b] (mingled a b) := by
  intro raw react mem
  obtain ⟨m, sent, eq⟩ := List.mem_map.mp mem
  refine .inr ?_
  rw [← (LogTraceEvent.message.inj eq).1]
  simp only [List.mem_append] at sent
  rcases sent with ((late | other) | early) | again
  · exact ⟨a, by simp, m, List.mem_of_mem_drop late, rfl⟩
  · exact ⟨b, by simp, m, other, rfl⟩
  · exact ⟨a, by simp, m, List.mem_of_mem_take early, rfl⟩
  · exact ⟨a, by simp, m, List.mem_of_mem_drop again, rfl⟩

theorem viewer_shows_the_latest_two :
    ∃ a b c, exec LogTraceReporter.step (.create .default (lit "a")) firstLog = some a ∧
      exec LogTraceReporter.step (.create .default (lit "b")) [wrote 3 .error] = some b ∧
      exec step (create none none (some 2)) (mingled a b) = some c ∧
      (c.list none none).map LogTraceEntry.key = [(lit "b", 1), (lit "a", 3)] ∧
      c.gapCount = 1 ∧
      ∃ missing : Finset (JSString × Nat), c.gapCount = missing.card ∧
        ∀ p, p ∈ missing ↔ ∃ r ∈ [a, b], ∃ e ∈ r.sent.flatMap Message.entries,
          p = (r.source, e.seq) ∧ ¬ Came (mingled a b) r e ∧
            ∃ e', Came (mingled a b) r e' ∧ e.seq < e'.seq := by
  have done : ((exec LogTraceReporter.step (.create .default (lit "a")) firstLog).bind fun a =>
      (exec LogTraceReporter.step (.create .default (lit "b")) [wrote 3 .error]).bind fun b =>
        (exec step (create none none (some 2)) (mingled a b)).map fun c =>
          (c.closed, c.gapCount, (c.list none none).map LogTraceEntry.key)) =
      some (false, 1, [(lit "b", 1), (lit "a", 3)]) := by
    decide +kernel
  obtain ⟨a, ha, done⟩ := Option.bind_eq_some_iff.mp done
  obtain ⟨b, hb, done⟩ := Option.bind_eq_some_iff.mp done
  obtain ⟨c, hc, values⟩ := Option.map_eq_some_iff.mp done
  simp only [Prod.mk.injEq] at values
  obtain ⟨isOpen, gap, listed⟩ := values
  have printed : ∀ {source es r}, exec LogTraceReporter.step (.create .default source) es = some r →
      (∀ e ∈ es, ∃ now level, e = wrote now level) →
      r.Logged ∧ r.type = lit "log:trace" ∧ r.source = source := by
    intro source es r h notes
    have run : Run LogTraceReporter.step Serializable (.create .default source) es r := by
      apply Run.of_events _ h
      intro e mem s
      obtain ⟨now, level, rfl⟩ := notes e mem
      exact fun _ => rfl
    have configured := (run_entries run (timed_create _ _)).1
    exact ⟨⟨_, source, es, run⟩, configured.type, configured.source⟩
  obtain ⟨loggedA, typeA, sourceA⟩ := printed ha (by simp [firstLog])
  obtain ⟨loggedB, typeB, sourceB⟩ := printed hb (by simp)
  have reporters : Reporters ((none : Option JSString).getD (lit "log:")) [a, b] := by
    have listens : Listens (lit "log:") (lit "log:trace") := ⟨by decide, by decide⟩
    refine ⟨?_, ?_, ?_⟩
    · simp [loggedA, loggedB]
    · simp [typeA, typeB, listens]
    · rw [List.map_cons, List.map_singleton, sourceA, sourceB]
      decide
  have run : Run step Keeps (create none none (some 2)) (mingled a b) c := by
    apply Run.of_events _ hc
    intro e mem state
    obtain ⟨m, -, rfl⟩ := List.mem_map.mp mem
    exact ⟨fun _ _ => rfl, fun _ _ h => nomatch h⟩
  obtain ⟨-, -, -, -, -, missing⟩ :=
    viewer_shows_the_latest run isOpen reporters (relayed_mingled _ a b)
  exact ⟨a, b, c, ha, hb, hc, listed, gap, missing⟩

end LogTraceConsumer

end LemonModel
