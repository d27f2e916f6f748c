import LemonModel.LogTrace.Batches
import LemonModel.LogTrace.Contents

/-!
# No loss that did not happen

A consumer that gets every batch of a closed reporter counts no gap. A call whose `json`
cannot be printed throws, and its number is gone.
-/

namespace LemonModel

open Text

/-! ## What a consumer reads of a batch -/

namespace LogTraceReporter

variable {r r' : LogTraceReporter} {throws : Nat → Bool} {e : Event × (Nat → Bool)}
  {es : List (Event × (Nat → Bool))} {call : Call} {entry : Entry} {m : Message}

theorem level_name (level : LogTraceLevel) : levelWeight level.name = some (some level.weight) := by
  cases level <;> decide +kernel

theorem entry_read (source : JSString) (pos : 0 < entry.seq) :
    ∃ read, isLogTraceEntry source entry.document = some (some read) ∧ read.source = source ∧
      read.seq = entry.seq := by
  have level : entry.document.prop? (lit "level") = some (.str entry.level.name) := by
    rw [Entry.document, Entry.members, prop?_cons, if_pos rfl]
  have ts : numField entry.document (lit "ts") = some (Decimal.ofNat entry.ts).value := by
    rw [numField, Entry.document, Entry.members, prop?_cons, if_neg (by decide), prop?_cons,
      if_pos rfl]
    rfl
  have message : strField entry.document (lit "message") = some entry.message := by
    rw [strField, Entry.document, Entry.members, prop?_cons, if_neg (by decide), prop?_cons,
      if_neg (by decide), prop?_cons, if_pos rfl]
    rfl
  have seq : natField entry.document (lit "seq") = some entry.seq := by
    rw [natField, Entry.document, Entry.members, prop?_cons, if_neg (by decide), prop?_cons,
      if_neg (by decide), prop?_cons, if_neg (by decide), prop?_cons, if_pos rfl]
    exact Json.nat?_ofNat _
  refine ⟨⟨entry.level.name, (Decimal.ofNat entry.ts).value, entry.seq, source,
    setProp entry.members (lit "source") (.str source), pos⟩, ?_, rfl, rfl⟩
  have shape : isLogTraceEntry source entry.document =
      (propertyKey (.str entry.level.name)).map fun level =>
        acceptEntry source level entry.document entry.members := by
    unfold isLogTraceEntry
    rw [Entry.document] at level ⊢
    simp only [level]
  rw [shape, propertyKey, Option.map_some, acceptEntry, level_name, ts, message, seq]
  simp [pos]

theorem entries_read (source : JSString) {entries : List Entry} (pos : ∀ e ∈ entries, 0 < e.seq) :
    (readEntries source (entries.map Entry.document)).map LogTraceEntry.key =
      entries.map fun e => (source, e.seq) := by
  induction entries with
  | nil => rfl
  | cons entry entries ih =>
    obtain ⟨read, checked, own, seq⟩ := entry_read source (pos entry List.mem_cons_self)
    have rest := ih fun e he => pos e (List.mem_cons_of_mem _ he)
    rw [List.map_cons, readEntries, checked]
    simp only [List.map_cons, rest, LogTraceEntry.key, own, seq]

theorem entry_wf (entry : Entry) : entry.document.Wf := by
  rw [Entry.document, Entry.members, Json.wf_obj]
  cases entry.json with
  | none => cases entry.truncated <;> simp +decide
  | some data =>
    cases data with
    | printed j wf => cases entry.truncated <;> simp +decide [wf]
    | omitted | unprintable => cases entry.truncated <;> simp +decide

theorem message_wf (m : Message) : m.document.Wf := by
  have entries : (Json.arr (m.entries.map Entry.document)).Wf := by
    rw [Json.wf_arr]
    intro x hx
    obtain ⟨e, -, rfl⟩ := List.mem_map.mp hx
    exact entry_wf e
  have data : (Json.obj [(lit "entries", .arr (m.entries.map Entry.document)),
      (lit "source", .str m.source)]).Wf := by
    rw [Json.wf_obj]
    simp +decide [entries]
  rw [Message.document, Json.wf_obj]
  simp +decide [data]

/-- The filters of a consumer let the messages of this type through. -/
structure Listens (typePrefix type : JSString) : Prop where
  starts : typePrefix <+: type
  /-- It sees the type in the raw text. -/
  printed : typePrefix <+: quoteUnits type

theorem message_read {typePrefix : JSString} (listens : Listens typePrefix m.type)
    (pos : ∀ e ∈ m.entries, 0 < e.seq) :
    ∃ batch, readBatch typePrefix m.raw = some batch ∧ batch.source = m.source ∧
      batch.entries.map LogTraceEntry.key = m.entries.map fun e => (m.source, e.seq) := by
  have marker : lit "\"type\":\"" ++ typePrefix <:+: m.raw := by
    obtain ⟨rest, cut⟩ := listens.printed
    have head : ∃ tail, m.raw = unit '{' :: (lit "\"type\":\"" ++ (quoteUnits m.type ++ tail)) := by
      have key : lit "\"type\":\"" = quote (lit "type") ++ [unit ':', unit '"'] := by decide
      have value : (Json.str m.type).text = unit '"' :: (quoteUnits m.type ++ [unit '"']) := rfl
      refine ⟨unit '"' :: (propsText [unit ','] [(lit "data", .obj
        [(lit "entries", .arr (m.entries.map Entry.document)), (lit "source", .str m.source)]),
        (lit "mid", .str (unit 'l' :: natText m.mid))] ++ [unit '}']), ?_⟩
      rw [key, Message.raw, Message.document, Json.text, propsText, value]
      simp only [List.nil_append, List.cons_append, List.append_assoc]
    obtain ⟨tail, head⟩ := head
    refine ⟨[unit '{'], rest ++ tail, ?_⟩
    rw [head, ← cut]
    simp
  have type : strField m.document (lit "type") = some m.type := by
    rw [strField, Message.document, prop?_cons, if_pos rfl]
    rfl
  have data : m.document.prop? (lit "data") = some (.obj
      [(lit "entries", .arr (m.entries.map Entry.document)), (lit "source", .str m.source)]) := by
    rw [Message.document, prop?_cons, if_neg (by decide), prop?_cons, if_pos rfl]
  refine ⟨⟨m.source, readEntries m.source (m.entries.map Entry.document),
    readEntries_source _ _⟩, ?_, rfl, entries_read m.source pos⟩
  have parsed : parse m.raw = some m.document := parse_text m.document (message_wf m)
  have starts : typePrefix.isPrefixOf m.type = true := List.isPrefixOf_iff_prefix.mpr listens.starts
  simp only [readBatch, marker, parsed, type, starts, data, bind, Option.bind_some]
  rfl

end LogTraceReporter

/-! ## What came over a run of a consumer -/

namespace LogTraceConsumer

variable {c c' : LogTraceConsumer} {react : Nat → LogTraceEntry → LogTraceReaction}
  {es : List LogTraceEvent}

/-- What its options are, and that it stays closed. -/
structure Later (c c' : LogTraceConsumer) : Prop where
  typePrefix : c'.typePrefix = c.typePrefix
  closed : c.closed = true → c'.closed = true

theorem Later.refl (c : LogTraceConsumer) : c.Later c := ⟨rfl, id⟩

theorem Later.trans {c'' : LogTraceConsumer} (h : c.Later c') (h' : c'.Later c'') : c.Later c'' :=
  ⟨h'.typePrefix.trans h.typePrefix, h'.closed ∘ h.closed⟩

theorem later_call (c : LogTraceConsumer) (a : LogTraceCall) : c.Later (c.call a) := by
  cases a with
  | onEntry handler =>
    simp only [call]
    split
    · exact .refl c
    · exact ⟨rfl, id⟩
  | unsubscribe handler => exact ⟨rfl, id⟩
  | clear => exact ⟨rfl, id⟩
  | close => exact ⟨rfl, fun _ => rfl⟩

theorem later_calls (calls : List LogTraceCall) (c : LogTraceConsumer) :
    c.Later (calls.foldl call c) := by
  induction calls generalizing c with
  | nil => exact .refl c
  | cons a calls ih => exact (later_call c a).trans (ih (c.call a))

theorem later_notify (react : Nat → LogTraceEntry → LogTraceReaction) (entry : LogTraceEntry)
    (c : LogTraceConsumer) (handlers : List Nat) : c.Later (notify react entry c handlers).1 := by
  induction handlers generalizing c with
  | nil => exact .refl c
  | cons handler rest ih =>
    have told : c.Later { c with heard := (handler, entry) :: c.heard } := ⟨rfl, id⟩
    have after := told.trans (later_calls (react handler entry).calls _)
    simp only [notify]
    split
    · exact after
    · exact after.trans (ih _)

theorem later_examine (react : Nat → LogTraceEntry → LogTraceReaction) (entry : LogTraceEntry)
    (c : LogTraceConsumer) : c.Later (c.examine react entry).1 := by
  simp only [examine]
  split
  · exact .refl c
  · split
    · exact ⟨rfl, id⟩
    · have stored : c.Later ((c.account entry).store entry) := ⟨rfl, id⟩
      exact stored.trans (later_notify react entry _ _)

theorem later_examineAll (react : Nat → LogTraceEntry → LogTraceReaction)
    (entries : List LogTraceEntry) (c : LogTraceConsumer) :
    c.Later (LogTraceConsumer.examineAll react c entries) := by
  induction entries generalizing c with
  | nil => exact .refl c
  | cons entry rest ih =>
    have first := later_examine react entry c
    simp only [LogTraceConsumer.examineAll]
    split
    · exact first.trans (ih _)
    · exact first

theorem later_receive (react : Nat → LogTraceEntry → LogTraceReaction) (batch : LogTraceBatch)
    (c : LogTraceConsumer) : c.Later (c.receive react batch) := by
  have begun : c.Later { c with
      sources := c.sources.set batch.source (c.stateOf batch.source)
      received := c.received ++ batch.entries } := ⟨rfl, id⟩
  exact begun.trans (later_examineAll react batch.entries _)

/-- The entries an event brings. -/
def brought (typePrefix : JSString) : LogTraceEvent → List LogTraceEntry
  | .message raw _ => ((readBatch typePrefix raw).map LogTraceBatch.entries).getD []
  | .call _ => []

theorem received_step {e : LogTraceEvent} (hstep : c.step e = some c') :
    c.Later c' ∧ (c'.closed = false → c'.received = c.received ++ brought c.typePrefix e) := by
  cases e with
  | message raw react =>
    obtain rfl := Option.some.inj hstep
    simp only [brought]
    split
    · rename_i closed
      refine ⟨.refl c, fun open_ => ?_⟩
      rw [closed] at open_
      cases open_
    · split
      · rename_i batch read
        rw [read]
        exact ⟨later_receive react batch c, fun _ => (frame_examineAll _ _ _).1⟩
      · rename_i unread
        rw [unread]
        exact ⟨.refl c, fun _ => (List.append_nil _).symm⟩
  | call a =>
    obtain rfl := Option.some.inj hstep
    refine ⟨later_call c a, fun _ => ?_⟩
    rw [(reacted_call c a).received]
    exact (List.append_nil _).symm

theorem received_run (run : exec step c es = some c') :
    c.Later c' ∧
      (c'.closed = false → c'.received = c.received ++ es.flatMap (brought c.typePrefix)) := by
  induction es generalizing c with
  | nil =>
    obtain rfl : c = c' := by simpa [exec] using run
    exact ⟨.refl c, fun _ => (List.append_nil _).symm⟩
  | cons e es ih =>
    obtain ⟨c₁, hstep, rest⟩ := Option.bind_eq_some_iff.mp run
    obtain ⟨first, came⟩ := received_step hstep
    obtain ⟨then_, rest⟩ := ih rest
    refine ⟨first.trans then_, fun open_ => ?_⟩
    have still : c₁.closed = false := by
      cases closed : c₁.closed with
      | false => rfl
      | true =>
        rw [then_.closed closed] at open_
        cases open_
    rw [rest open_, came still, first.typePrefix, List.flatMap_cons, List.append_assoc]

/-- What `gapCount` counts for a source. -/
def gapOf (c : LogTraceConsumer) (source : JSString) : Nat :=
  (c.stateOf source).maxSeq - (c.stateOf source).seen.length

theorem gapOf_eq_zero {came : List LogTraceEntry} (h : c.Tally came) {source : JSString} {n : Nat}
    (all : seqsOf came source = Finset.Icc 1 n) : c.gapOf source = 0 := by
  rw [gapOf, h.maxSeq_eq, h.length_eq, all, Nat.card_Icc, Nat.add_sub_cancel, Nat.sub_eq_zero_iff_le]
  apply Finset.sup_le
  intro k mem
  exact (Finset.mem_Icc.mp mem).2

end LogTraceConsumer

namespace LogTraceReporter

open LogTraceConsumer (gapOf brought silent)

variable {r r' : LogTraceReporter} {throws : Nat → Bool} {e : Event × (Nat → Bool)}
  {es : List (Event × (Nat → Bool))} {options : LogTraceReporterOptions} {source : JSString}

/-! ## The batches of a closed reporter -/

/-- Every message names the type and the source. -/
def Labelled (r : LogTraceReporter) : Prop := ∀ m ∈ r.sent, m.type = r.type ∧ m.source = r.source

theorem labelled_flush (h : r.Labelled) (throws : Nat → Bool) : (r.flush throws).Labelled := by
  unfold flush
  by_cases waits : r.buffer = []
  · have none_ : r.buffer.isEmpty = true := by simp [waits]
    simp only [none_, if_true]
    exact h
  · have some_ : r.buffer.isEmpty = false := by simpa using waits
    simp only [some_, Bool.false_eq_true, if_false]
    intro m mem
    rcases List.mem_append.mp mem with old | new
    · exact h m old
    · obtain rfl := List.mem_singleton.mp new
      exact ⟨rfl, rfl⟩

theorem labelled_add (h : r.Labelled) (throws : Nat → Bool) (entry : Entry) (bytes : Nat) :
    (r.add throws entry bytes).Labelled := by
  have trigger : ∀ {r : LogTraceReporter}, r.Labelled → ∀ level,
      (r.trigger throws level).Labelled := by
    intro r h level
    unfold LogTraceReporter.trigger
    split
    · exact labelled_flush h throws
    · split
      · exact h
      · split
        · exact h
        · exact labelled_flush h throws
  unfold add
  dsimp only
  apply trigger
  split
  · exact labelled_flush h throws
  · exact h

theorem labelled_step (h : r.Labelled) (hstep : r.step e = some r') : r'.Labelled := by
  obtain ⟨e, throws⟩ := e
  cases e with
  | log call =>
    obtain rfl : (r.log throws call).1 = r' := Option.some.inj hstep
    cases open_ : r.passes call with
    | false =>
      rw [log_gated open_]
      exact h
    | true =>
      cases printable : (call.entry 0).printable with
      | false =>
        rw [log_throws open_ printable]
        exact h
      | true =>
        obtain ⟨errors, logged⟩ := log_adds throws open_ printable
        rw [logged]
        exact labelled_add (r := { r with seqNo := r.seqNo + 1, errors := errors }) h throws _ _
  | flush =>
    obtain rfl : r.flush throws = r' := Option.some.inj hstep
    exact labelled_flush h throws
  | close =>
    obtain rfl : r.close throws = r' := Option.some.inj hstep
    exact labelled_flush h throws
  | timer =>
    obtain rfl := step_timer hstep
    exact labelled_flush h throws
  | reject i =>
    obtain ⟨m, -, rfl⟩ := step_reject hstep
    exact h

/-- The entries are numbered from one on, without a gap. -/
theorem entries_numbered (run : Run step Serializable (create options source) es r) :
    ∃ n, r.entries.map Entry.seq = List.range' 1 n := by
  obtain ⟨-, -, entries⟩ := run_entries run (timed_create options source)
  exact ⟨_, (congrArg (List.map Entry.seq) entries).trans (recorded_seq _ 0 _)⟩

/-- A closed reporter has sent the numbers from one on, without a gap. -/
theorem sent_closed (run : Run step Serializable (create options source) es r)
    (closed : r.closed = true) :
    ∃ n, (r.sent.flatMap Message.entries).map Entry.seq = List.range' 1 n := by
  obtain ⟨-, timed, -⟩ := run_entries run (timed_create options source)
  obtain ⟨n, numbers⟩ := entries_numbered run
  rw [LogTraceReporter.entries, timed.closed closed, List.append_nil] at numbers
  exact ⟨n, numbers⟩

/-- Every batch comes to the consumer, in any order and any number of times. What else comes
is of other sources. -/
structure Delivered (r : LogTraceReporter) (typePrefix : JSString) (ms : List LogTraceEvent) :
    Prop where
  all : ∀ m ∈ r.sent, ∃ react, .message m.raw react ∈ ms
  own : ∀ raw react, .message raw react ∈ ms → ∀ batch, readBatch typePrefix raw = some batch →
    batch.source = r.source → ∃ m ∈ r.sent, m.raw = raw

theorem seqs_delivered {typePrefix : JSString} {ms : List LogTraceEvent}
    (listens : Listens typePrefix r.type) (delivered : Delivered r typePrefix ms)
    (labelled : r.Labelled) {n : Nat}
    (numbers : (r.sent.flatMap Message.entries).map Entry.seq = List.range' 1 n) :
    LogTraceConsumer.seqsOf (ms.flatMap (brought typePrefix)) r.source = Finset.Icc 1 n := by
  have numbered : ∀ k, (∃ m ∈ r.sent, k ∈ m.entries.map Entry.seq) ↔ 1 ≤ k ∧ k ≤ n := by
    intro k
    have mem : k ∈ (r.sent.flatMap Message.entries).map Entry.seq ↔ k ∈ List.range' 1 n := by
      rw [numbers]
    rw [List.map_flatMap, List.mem_flatMap, List.mem_range'_1] at mem
    rw [mem]
    omega
  have read : ∀ m ∈ r.sent, ∃ batch, readBatch typePrefix m.raw = some batch ∧
      batch.source = r.source ∧
      batch.entries.map LogTraceEntry.key = m.entries.map fun e => (r.source, e.seq) := by
    intro m mem
    obtain ⟨type, own⟩ := labelled m mem
    rw [← type] at listens
    rw [← own]
    apply message_read listens
    intro e he
    have low := (numbered e.seq).mp ⟨m, mem, List.mem_map_of_mem he⟩
    omega
  ext k
  rw [LogTraceConsumer.mem_seqsOf, Finset.mem_Icc, ← numbered k]
  simp only [List.mem_map, List.mem_flatMap]
  constructor
  · rintro ⟨e, ⟨event, mem, came⟩, key⟩
    obtain ⟨source, seq⟩ := Prod.mk.inj key
    cases event with
    | call a => cases came
    | message raw react =>
      simp only [brought] at came
      cases heard : readBatch typePrefix raw with
      | none =>
        rw [heard] at came
        cases came
      | some batch =>
        rw [heard] at came
        have own : batch.source = r.source := (batch.own e came).symm.trans source
        obtain ⟨m, sent, rfl⟩ := delivered.own raw react mem batch heard own
        obtain ⟨batch', heard', -, keys⟩ := read m sent
        obtain rfl := Option.some.inj (heard.symm.trans heard')
        have key : e.key ∈ m.entries.map fun e => (r.source, e.seq) := by
          rw [← keys]
          exact List.mem_map_of_mem came
        obtain ⟨entry, mem, same⟩ := List.mem_map.mp key
        exact ⟨m, sent, entry, mem, (Prod.mk.inj same).2.trans seq⟩
  · rintro ⟨m, sent, entry, mem, rfl⟩
    obtain ⟨react, event⟩ := delivered.all m sent
    obtain ⟨batch, heard, -, keys⟩ := read m sent
    have key : (r.source, entry.seq) ∈ batch.entries.map LogTraceEntry.key := by
      rw [keys]
      exact List.mem_map.mpr ⟨entry, mem, rfl⟩
    obtain ⟨e, came, same⟩ := List.mem_map.mp key
    refine ⟨e, ⟨_, event, ?_⟩, same⟩
    simp only [brought]
    rw [heard]
    exact came

/-! ## The claim of no gap -/

/-- Does an exception come out of it. -/
def escapes (r : LogTraceReporter) (e : Event × (Nat → Bool)) : Bool :=
  ((r.handle e.2 e.1).map Prod.snd).getD false

theorem escapes_iff (r : LogTraceReporter) (e : Event × (Nat → Bool)) :
    r.escapes e = false ↔ Serializable r e := by
  obtain ⟨e, throws⟩ := e
  cases e with
  | log call =>
    show (r.log throws call).2 = false ↔ (r.passes call = true → (call.entry 0).printable = true)
    cases open_ : r.passes call with
    | false => simp [log_gated open_]
    | true =>
      cases printable : (call.entry 0).printable with
      | false => simp [log_throws open_ printable]
      | true =>
        obtain ⟨errors, logged⟩ := log_adds throws open_ printable
        simp [logged]
  | flush => exact iff_of_true rfl trivial
  | close => exact iff_of_true rfl trivial
  | timer =>
    refine iff_of_true ?_ trivial
    simp only [escapes, handle]
    split <;> rfl
  | reject i =>
    refine iff_of_true ?_ trivial
    simp only [escapes, handle]
    cases r.sent[i]? with
    | none => rfl
    | some m => rfl

/-- **No loss is faked.** No call throws, and a consumer that gets every batch of a closed
reporter lacks nothing of it, exactly if `JSON.stringify` takes the `json` of every call
past the gate. -/
theorem log_never_fakes_loss (h : exec step (create options source) es = some r) :
    ((∀ pre e t, pre ++ [e] <+: es → exec step (create options source) pre = some t →
        t.escapes e = false) ∧
      (r.closed = true → ∀ typePrefix min most ms c,
        Run LogTraceConsumer.step LogTraceConsumer.Quiet
          (LogTraceConsumer.create typePrefix min most) ms c →
        c.closed = false → Listens c.typePrefix r.type → Delivered r c.typePrefix ms →
        c.gapOf r.source = 0)) ↔
      Run step Serializable (create options source) es r := by
  rw [run_iff_everywhere h]
  constructor
  · rintro ⟨safe, -⟩ pre e t hpre ht
    exact (escapes_iff t e).mp (safe pre e t hpre ht)
  · intro good
    refine ⟨fun pre e t hpre ht => (escapes_iff t e).mpr (good pre e t hpre ht), ?_⟩
    intro closed typePrefix min most ms c received open_ listens delivered
    have run := (run_iff_everywhere h).mpr good
    have labelled : r.Labelled := exec_invariant Labelled
      (fun _ _ _ => labelled_step) h fun _ mem => (nomatch mem)
    obtain ⟨n, numbers⟩ := sent_closed run closed
    have law := received.invariant (LogTraceConsumer.Lawful (min.getD .debug) (most.getD 1000))
      (fun _ _ _ h quiet hstep => LogTraceConsumer.lawful_step h quiet hstep)
      (LogTraceConsumer.lawful_create typePrefix min most)
    obtain ⟨later, came⟩ := LogTraceConsumer.received_run received.exec_eq
    apply LogTraceConsumer.gapOf_eq_zero law.holds.tally (n := n)
    rw [came open_, ← later.typePrefix]
    exact seqs_delivered listens delivered labelled numbers

/-! Two notes, and the batches in reverse; then a note that cannot be printed, and one more. -/

/-- The messages as they come, the last one first. -/
def backwards (r : LogTraceReporter) : List LogTraceEvent :=
  r.sent.reverse.map fun m => .message m.raw silent

theorem delivered_backwards (r : LogTraceReporter) (typePrefix : JSString) :
    Delivered r typePrefix r.backwards where
  all m mem := ⟨silent, List.mem_map.mpr ⟨m, List.mem_reverse.mpr mem, rfl⟩⟩
  own raw react mem _ _ _ := by
    obtain ⟨m, sent, same⟩ := List.mem_map.mp mem
    exact ⟨m, List.mem_reverse.mp sent, (LogTraceEvent.message.inj same).1⟩

def badNote : Event × (Nat → Bool) :=
  (.log ⟨0, .info, lit "x", some .unprintable⟩, fun _ => false)

def shut : Event × (Nat → Bool) := (.close, fun _ => false)

theorem log_never_fakes_loss_notes :
    ∃ r c, exec step (create .default (lit "s")) [note .info, note .error, shut] = some r ∧
      exec LogTraceConsumer.step (.create none none none) r.backwards = some c ∧
      r.sent.length = 2 ∧ c.gapOf r.source = 0 := by
  obtain ⟨r, run⟩ := Run.of_allGood step Serializable (create .default (lit "s"))
    [note .info, note .error, shut] (by decide +kernel)
  have closed : r.closed = true := run.read (f := LogTraceReporter.closed) (by decide +kernel)
  have type : r.type = lit "log:trace" := run.read (f := LogTraceReporter.type) (by decide +kernel)
  have still : (exec LogTraceConsumer.step (.create none none none) r.backwards).map
      (fun c => (c.closed, c.typePrefix)) = some (false, lit "log:") :=
    run.read (f := fun r => (exec LogTraceConsumer.step (.create none none none)
      r.backwards).map fun c => (c.closed, c.typePrefix)) (by decide +kernel)
  obtain ⟨c, received, open_⟩ := Option.map_eq_some_iff.mp still
  obtain ⟨open_, filter⟩ := Prod.mk.inj open_
  have quiet : Run LogTraceConsumer.step LogTraceConsumer.Quiet (.create none none none)
      r.backwards c := by
    apply Run.of_events _ received
    intro e mem state
    obtain ⟨m, -, rfl⟩ := List.mem_map.mp mem
    exact fun _ _ => rfl
  obtain ⟨-, none_⟩ := (log_never_fakes_loss run.exec_eq).mpr run
  refine ⟨r, c, run.exec_eq, received,
    run.read (f := fun r => r.sent.length) (by decide +kernel), ?_⟩
  apply none_ closed none none none r.backwards c quiet open_
  · rw [filter, type]
    exact ⟨by decide, by decide⟩
  · exact delivered_backwards r c.typePrefix

/-- The note throws, and the next one seems to come after a loss. -/
theorem bad_note_fakes_loss :
    (create .default (lit "s")).escapes badNote = true ∧
    ∃ r c, exec step (create .default (lit "s")) [badNote, note .info, shut] = some r ∧
      r.closed = true ∧ r.sent.length = 1 ∧ Delivered r (lit "log:") r.backwards ∧
      exec LogTraceConsumer.step (.create none none none) r.backwards = some c ∧
      c.gapOf (lit "s") = 1 := by
  refine ⟨rfl, ?_⟩
  have still : ((exec step (create .default (lit "s")) [badNote, note .info, shut]).bind fun r =>
      (exec LogTraceConsumer.step (.create none none none) r.backwards).map fun c =>
        (r.closed, r.sent.length, c.gapOf (lit "s"))) = some (true, 1, 1) := by
    decide +kernel
  obtain ⟨r, run, rest⟩ := Option.bind_eq_some_iff.mp still
  obtain ⟨c, received, values⟩ := Option.map_eq_some_iff.mp rest
  simp only [Prod.mk.injEq] at values
  exact ⟨r, c, run, values.1, values.2.1, delivered_backwards r _, received, values.2.2⟩

end LogTraceReporter

end LemonModel
