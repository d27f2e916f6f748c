import LemonModel.Base.Dict
import LemonModel.Base.Greatest
import LemonModel.Base.Run
import LemonModel.Transport.Packet
import Mathlib.Algebra.Order.Floor.Defs
import Mathlib.Algebra.Order.Floor.Ring
import Mathlib.Data.Rat.Floor

/-!
# Log trace consumer

`createLogTraceConsumer`: batches of log entries come in any order and more than once;
the newest entries are kept sorted, and what got lost is counted.
-/

namespace LemonModel

open Text

/-! ## Levels -/

inductive LogTraceLevel where
  | debug
  | info
  | warn
  | error
  deriving DecidableEq

namespace LogTraceLevel

def name : LogTraceLevel → JSString
  | debug => lit "debug"
  | info => lit "info"
  | warn => lit "warn"
  | error => lit "error"

/-- `LEVEL_WEIGHT`. -/
def weight : LogTraceLevel → Nat
  | debug => 0
  | info => 1
  | warn => 2
  | error => 3

def all : List LogTraceLevel := [debug, info, warn, error]

end LogTraceLevel

/-- `LEVEL_WEIGHT[key]`: an inherited property is defined, and is not a number. -/
def levelWeight (key : JSString) : Option (Option Nat) :=
  match LogTraceLevel.all.find? fun level => level.name = key with
  | some level => some (some level.weight)
  | none => if key ∈ objectPrototype then some none else none

mutual

/-- The property key a document is converted to. An own `toString` is no function, and
makes the conversion throw. -/
def propertyKey : Json → Option JSString
  | .null => some (lit "null")
  | .bool b => some (if b then lit "true" else lit "false")
  | .num n => some n.text
  | .str s => some s
  | .arr items => (joined items).map fun parts => (parts.intersperse (lit ",")).flatten
  | .obj props =>
    if (props.lookup (lit "toString")).isSome then none else some (lit "[object Object]")

def joined : List Json → Option (List JSString)
  | [] => some []
  | .null :: items => (joined items).map ([] :: ·)
  | item :: items =>
    (propertyKey item).bind fun part => (joined items).map (part :: ·)

end

/-! ## Entries -/

/-- An entry as it is stored; `fields` is the whole of it. -/
@[ext]
structure LogTraceEntry where
  level : JSString
  ts : ℚ
  seq : Nat
  source : JSString
  fields : List (JSString × Json)
  pos : 0 < seq

namespace LogTraceEntry

instance : DecidableEq LogTraceEntry := fun _ _ => decidable_of_iff _ LogTraceEntry.ext_iff.symm

def key (e : LogTraceEntry) : JSString × Nat := (e.source, e.seq)

/-- `LEVEL_WEIGHT[entry.level]`, if it is a number. -/
def weight (e : LogTraceEntry) : Option Nat := (levelWeight e.level).join

/-- `LEVEL_WEIGHT[entry.level] < min`; what is not a number is not less. -/
def below (e : LogTraceEntry) (min : LogTraceLevel) : Bool :=
  match e.weight with
  | some weight => weight < min.weight
  | none => false

/-- `compareEntry`. -/
def compare (a b : LogTraceEntry) : ℚ :=
  if a.ts - b.ts = 0 then (a.seq : ℚ) - b.seq else a.ts - b.ts

/-- In ascending order of `(ts, seq)`. -/
def Le (a b : LogTraceEntry) : Prop := a.compare b ≤ 0

instance : DecidableRel Le := fun a b => inferInstanceAs (Decidable (a.compare b ≤ 0))

theorem le_iff {a b : LogTraceEntry} : a.Le b ↔ a.ts < b.ts ∨ a.ts = b.ts ∧ a.seq ≤ b.seq := by
  unfold Le compare
  by_cases same : a.ts = b.ts
  · rw [if_pos (sub_eq_zero.mpr same), sub_nonpos, Nat.cast_le]
    simp [same]
  · rw [if_neg (sub_ne_zero.mpr same), sub_nonpos, le_iff_lt_or_eq]
    simp [same]

instance : Std.Total Le where
  total a b := by
    simp only [le_iff]
    rcases lt_trichotomy a.ts b.ts with lt | eq | gt
    · exact .inl (.inl lt)
    · rcases Nat.le_total a.seq b.seq with le | le
      · exact .inl (.inr ⟨eq, le⟩)
      · exact .inr (.inr ⟨eq.symm, le⟩)
    · exact .inr (.inl gt)

instance : IsTrans LogTraceEntry Le where
  trans a b c hab hbc := by
    simp only [le_iff] at *
    rcases hab with lt | ⟨eq, le⟩
    · rcases hbc with lt' | ⟨eq', -⟩
      · exact .inl (lt.trans lt')
      · exact .inl (eq' ▸ lt)
    · rcases hbc with lt' | ⟨eq', le'⟩
      · exact .inl (eq ▸ lt')
      · exact .inr ⟨eq.trans eq', le.trans le'⟩

end LogTraceEntry

/-- A field with a number. -/
def numField (j : Json) (k : JSString) : Option ℚ :=
  match j.prop? k with
  | some (.num n) => some n.value
  | _ => none

/-- The entry that is stored of one whose level is the property `level`. -/
def acceptEntry (source level : JSString) (entry : Json) (props : List (JSString × Json)) :
    Option LogTraceEntry := do
  let _ ← levelWeight level
  let ts ← numField entry (lit "ts")
  let _ ← strField entry (lit "message")
  let seq ← natField entry (lit "seq")
  if h : 0 < seq then
    some ⟨level, ts, seq, source, setProp props (lit "source") (.str source), h⟩
  else none

/-- The check of an entry of a batch, and what is stored of it; `none` where the check
throws. -/
def isLogTraceEntry (source : JSString) (entry : Json) : Option (Option LogTraceEntry) :=
  match entry with
  | .obj props =>
    match entry.prop? (lit "level") with
    | none => some none
    | some level =>
      (propertyKey level).map fun level => acceptEntry source level entry props
  | _ => some none

/-- The entries of a batch that pass the check, up to where it throws: the loop over the
batch does not come further. -/
def readEntries (source : JSString) : List Json → List LogTraceEntry
  | [] => []
  | entry :: rest =>
    match isLogTraceEntry source entry with
    | none => []
    | some none => readEntries source rest
    | some (some accepted) => accepted :: readEntries source rest

structure LogTraceBatch where
  source : JSString
  entries : List LogTraceEntry
  own : ∀ e ∈ entries, e.source = source

theorem acceptEntry_source {source level : JSString} {entry : Json}
    {props : List (JSString × Json)} {e : LogTraceEntry}
    (h : acceptEntry source level entry props = some e) : e.source = source := by
  simp only [acceptEntry, bind, Option.bind_eq_some_iff] at h
  obtain ⟨_, -, ts, -, _, -, seq, -, h⟩ := h
  split at h
  · obtain rfl := Option.some.inj h
    rfl
  · cases h

theorem isLogTraceEntry_source {source : JSString} {entry : Json} {e : LogTraceEntry}
    (h : isLogTraceEntry source entry = some (some e)) : e.source = source := by
  unfold isLogTraceEntry at h
  split at h
  · split at h
    · cases h
    · obtain ⟨level, -, accepted⟩ := Option.map_eq_some_iff.mp h
      exact acceptEntry_source accepted
  · cases h

theorem readEntries_source (source : JSString) (entries : List Json) :
    ∀ e ∈ readEntries source entries, e.source = source := by
  induction entries with
  | nil => exact fun _ h => nomatch h
  | cons entry rest ih =>
    unfold readEntries
    split
    · exact fun _ h => nomatch h
    · exact ih
    · rename_i accepted check
      exact List.forall_mem_cons.mpr ⟨isLogTraceEntry_source check, ih⟩

/-- The batch a raw string brings, if it passes both filters. -/
def readBatch (typePrefix raw : JSString) : Option LogTraceBatch := do
  guard (lit "\"type\":\"" ++ typePrefix <:+: raw)
  let message ← parse raw
  let type ← strField message (lit "type")
  guard (typePrefix.isPrefixOf type)
  let batch ← message.prop? (lit "data")
  let source ← strField batch (lit "source")
  match batch.prop? (lit "entries") with
  | some (.arr entries) =>
    some ⟨source, readEntries source entries, readEntries_source source entries⟩
  | _ => none

/-! ## The consumer -/

/-- What came from a source. -/
structure LogTraceSourceState where
  maxSeq : Nat
  seen : List Nat
  deriving DecidableEq

/-- `received`, `accepted`, `stored` and `heard` are a record: the entries of every batch
that came, those stored since the last `clear` and those ever stored, and what each handler
was called with. -/
structure LogTraceConsumer where
  typePrefix : JSString
  minLevel : LogTraceLevel
  maxEntries : ℚ
  handlers : List Nat
  sources : Dict JSString LogTraceSourceState
  entries : List LogTraceEntry
  closed : Bool
  received : List LogTraceEntry
  accepted : List LogTraceEntry
  stored : List LogTraceEntry
  heard : List (Nat × LogTraceEntry)

/-- What the program may ask of a consumer, a handler too. -/
inductive LogTraceCall where
  | onEntry (handler : Nat)
  | unsubscribe (handler : Nat)
  | clear
  | close
  deriving DecidableEq

/-- What a handler does when it is called. -/
structure LogTraceReaction where
  calls : List LogTraceCall
  throws : Bool
  deriving DecidableEq

namespace LogTraceConsumer

/-- `createLogTraceConsumer`, with the options it was given. -/
def create (typePrefix : Option JSString) (minLevel : Option LogTraceLevel)
    (maxEntries : Option ℚ) : LogTraceConsumer where
  typePrefix := typePrefix.getD (lit "log:")
  minLevel := minLevel.getD .debug
  maxEntries := maxEntries.getD 1000
  handlers := []
  sources := .empty
  entries := []
  closed := false
  received := []
  accepted := []
  stored := []
  heard := []

variable (c : LogTraceConsumer)

def call : LogTraceCall → LogTraceConsumer
  | .onEntry handler =>
    if handler ∈ c.handlers then c else { c with handlers := c.handlers ++ [handler] }
  | .unsubscribe handler => { c with handlers := c.handlers.filter (· ≠ handler) }
  | .clear => { c with entries := [], accepted := [] }
  | .close => { c with closed := true, handlers := [] }

/-- Insert by `(ts, seq)`, and drop the oldest entry on overflow. -/
def store (entry : LogTraceEntry) : LogTraceConsumer :=
  let lo := bisect (fun mid => (c.entries[mid]?).any fun e => e.compare entry ≤ 0)
    c.entries.length 0 c.entries.length
  let entries := c.entries.take lo ++ entry :: c.entries.drop lo
  { c with
    entries := if (entries.length : ℚ) > c.maxEntries then entries.tail else entries
    accepted := c.accepted ++ [entry]
    stored := c.stored ++ [entry] }

/-- The handlers are called one after the other, until one throws. -/
def notify (react : Nat → LogTraceEntry → LogTraceReaction) (entry : LogTraceEntry) :
    LogTraceConsumer → List Nat → LogTraceConsumer × Bool
  | c, [] => (c, true)
  | c, handler :: rest =>
    let reaction := react handler entry
    let c := reaction.calls.foldl call { c with heard := (handler, entry) :: c.heard }
    if reaction.throws then (c, false) else notify react entry c rest

def stateOf (source : JSString) : LogTraceSourceState :=
  (c.sources.get? source).getD ⟨0, []⟩

/-- The number of an entry that was not seen. -/
def account (entry : LogTraceEntry) : LogTraceConsumer :=
  let state := c.stateOf entry.source
  { c with
    sources := c.sources.set entry.source
      ⟨max entry.seq state.maxSeq, entry.seq :: state.seen⟩ }

/-- One round of the loop over a batch; `false` when it throws. -/
def examine (react : Nat → LogTraceEntry → LogTraceReaction) (entry : LogTraceEntry) :
    LogTraceConsumer × Bool :=
  if entry.seq ∈ (c.stateOf entry.source).seen then (c, true)
  else
    let c := c.account entry
    if entry.below c.minLevel then (c, true)
    else
      let c := c.store entry
      notify react entry c c.handlers

def examineAll (react : Nat → LogTraceEntry → LogTraceReaction) :
    LogTraceConsumer → List LogTraceEntry → LogTraceConsumer
  | c, [] => c
  | c, entry :: rest =>
    let (c, goesOn) := c.examine react entry
    if goesOn then examineAll react c rest else c

/-- A batch comes. -/
def receive (react : Nat → LogTraceEntry → LogTraceReaction) (batch : LogTraceBatch) :
    LogTraceConsumer :=
  let c := { c with
    sources := c.sources.set batch.source (c.stateOf batch.source)
    received := c.received ++ batch.entries }
  examineAll react c batch.entries

/-- `list(query)`, with the `minLevel` and the `limit` of the query. -/
def list (minLevel : Option LogTraceLevel) (limit : Option ℚ) : List LogTraceEntry :=
  let min := (minLevel.getD .debug).weight
  let listed :=
    if min > 0 then c.entries.filter fun e => e.weight.any (· ≥ min) else c.entries
  match limit with
  | some limit =>
    if limit ≥ 0 ∧ (listed.length : ℚ) > limit then listed.drop ⌊listed.length - limit⌋.toNat
    else listed
  | none => listed

/-- Observed wire loss. -/
def gapCount : Nat :=
  (c.sources.entries.map fun e => e.2.maxSeq - e.2.seen.length).sum

end LogTraceConsumer

/-- What can happen to a consumer. `react` is what the handlers do as the batch comes. -/
inductive LogTraceEvent where
  | message (raw : JSString) (react : Nat → LogTraceEntry → LogTraceReaction)
  | call (call : LogTraceCall)

namespace LogTraceConsumer

def step (c : LogTraceConsumer) : LogTraceEvent → Option LogTraceConsumer
  | .message raw react =>
    some (if c.closed then c
      else
        match readBatch c.typePrefix raw with
        | some batch => c.receive react batch
        | none => c)
  | .call call => some (c.call call)

end LogTraceConsumer

end LemonModel
