import LemonModel.Base.Run
import LemonModel.Buffer.Wire

/-!
# The receiver and its consumer

`createGenAIStreamNetworkReceiver` with `reorder`. A consumer that rejects is reported; one
that throws at once leaves the loop over the waiting packets, and nobody is told.
-/

namespace LemonModel

open Text

/-! ## The receiver -/

/-- `came`, `failed` and `reported` are a record: the numbered packets, the events on which
the consumer failed, and those of which `onConsumerError` was told. `promises` are the events
whose promise is not settled. -/
structure GenAIStreamNetworkReceiver where
  order : InOrder Json
  promises : List Json
  came : List (Nat × Json)
  failed : List Json
  reported : List Json

namespace GenAIStreamNetworkReceiver

def start : GenAIStreamNetworkReceiver := ⟨.start, [], [], [], []⟩

variable (options : GenAIStreamNetworkOptions) (s : GenAIStreamNetworkReceiver)

/-- `accept`. Some calls of the consumer throw, and the others return a promise. -/
def accept (throws : Nat → Bool) (seq : Nat) (packet : Json) : GenAIStreamNetworkReceiver :=
  let order := s.order.accept throws seq packet
  let calls := ((order.out.drop s.order.out.length).map restorePacket).zipIdx s.order.out.length
  { s with
    order := order
    promises := s.promises ++ (calls.filter fun call => !throws call.2).map Prod.fst
    came := (seq, packet) :: s.came
    failed := s.failed ++ (calls.filter fun call => throws call.2).map Prod.fst }

/-- A promise of the consumer settles. -/
def settle (i : Nat) (rejects : Bool) (event : Json) : GenAIStreamNetworkReceiver :=
  let told := if rejects then [event] else []
  { s with
    promises := s.promises.eraseIdx i
    failed := s.failed ++ told
    reported := s.reported ++ told }

/-- A packet with a number that did not come before, with the calls of the consumer that then
throw, or the end of a promise. -/
inductive Event where
  | packet (packet : Json) (throws : Nat → Bool)
  | settle (i : Nat) (rejects : Bool)

def step (s : GenAIStreamNetworkReceiver) : Event → Option GenAIStreamNetworkReceiver
  | .packet packet throws =>
    match streamSeq options packet with
    | none => some s
    | some seq => if (s.came.lookup seq).isSome then none else some (s.accept throws seq packet)
  | .settle i rejects => (s.promises[i]?).map (s.settle i rejects)

variable {options : GenAIStreamNetworkOptions} {s s' : GenAIStreamNetworkReceiver} {e : Event}
  {es : List Event}

/-- The consumer was called once, in order, with every packet up to the first number that did
not come, and `onConsumerError` was told of every failure. -/
def Served (s : GenAIStreamNetworkReceiver) : Prop :=
  (∃ n, s.order.out.map some = (List.range n).map (s.came.lookup ·) ∧ s.came.lookup n = none) ∧
    s.reported = s.failed

/-- The consumer does not throw in a call for a packet whose turn comes with this one. -/
def Calm (options : GenAIStreamNetworkOptions) (s : GenAIStreamNetworkReceiver) : Event → Prop
  | .packet packet throws =>
    ∀ seq, streamSeq options packet = some seq →
      ∀ i, InOrder.Contiguous (((seq, packet) :: s.came).lookup ·) i →
        ¬InOrder.Contiguous (s.came.lookup ·) i → throws i = false
  | .settle _ _ => True

theorem lookup_cons_eq (came : List (Nat × Json)) (seq : Nat) (packet : Json) :
    (fun i => ((seq, packet) :: came).lookup i) =
      Function.update (fun i => came.lookup i) seq (some packet) := by
  funext i
  rw [List.lookup_cons]
  by_cases same : i = seq
  · rw [same, Function.update_self]
    simp
  · have apart : (i == seq) = false := by simpa using same
    rw [Function.update_of_ne same, apart]

/-- What came was handed on or waits. -/
def Gathered (s : GenAIStreamNetworkReceiver) : Prop :=
  InOrder.Gathered (fun i => s.came.lookup i) s.order

theorem Gathered.done (h : s.Gathered) (served : s.Served) : s.came.lookup s.order.next = none := by
  obtain ⟨⟨n, out, open_⟩, -⟩ := served
  have lengths := congrArg List.length (out.symm.trans h.out)
  rw [List.length_map, List.length_map, List.length_range, List.length_range] at lengths
  rwa [lengths] at open_

theorem filter_zipIdx_eq_nil {α : Type} {l : List α} {n : Nat} {p : Nat → Bool} :
    ((l.zipIdx n).filter fun a => p a.2) = [] ↔ ∀ i, n ≤ i → i < n + l.length → p i = false := by
  simp only [List.filter_eq_nil_iff, List.mem_zipIdx_iff_le_and_getElem?_sub, Bool.not_eq_true]
  constructor
  · intro none i le lt
    exact none (l[i - n], i) ⟨le, List.getElem?_eq_getElem (by omega)⟩
  · rintro none ⟨a, i⟩ ⟨le, at_⟩
    obtain ⟨lt, -⟩ := List.getElem?_eq_some_iff.mp at_
    exact none i le (by change i - n < l.length at lt; omega)

theorem step_served (h : s.Gathered) (served : s.Served) (hstep : step options s e = some s') :
    s'.Gathered ∧ (s'.Served ↔ Calm options s e) := by
  cases e with
  | settle i rejects =>
    obtain ⟨event, -, rfl⟩ := Option.map_eq_some_iff.mp hstep
    refine ⟨h, iff_of_true ⟨served.1, ?_⟩ trivial⟩
    show s.reported ++ _ = s.failed ++ _
    rw [served.2]
  | packet packet throws =>
    simp only [step] at hstep
    split at hstep
    · rename_i other
      obtain rfl := Option.some.inj hstep
      refine ⟨h, iff_of_true served fun seq numbered => ?_⟩
      rw [other] at numbered
      cases numbered
    · rename_i seq numbered
      split at hstep
      · cases hstep
      · rename_i isNew
        obtain rfl := Option.some.inj hstep
        have fresh : s.came.lookup seq = none := Option.not_isSome_iff_eq_none.mp isNew
        have done := h.done served
        obtain ⟨kept, ⟨new, out⟩, exactly⟩ := InOrder.Gathered.accept throws h fresh packet
        rw [← lookup_cons_eq] at kept exactly
        refine ⟨kept, ?_⟩
        have calm : Calm options s (.packet packet throws) ↔
            ∀ i, InOrder.Contiguous (((seq, packet) :: s.came).lookup ·) i →
              s.order.next ≤ i → throws i = false := by
          simp only [Calm, numbered, Option.some.injEq, forall_eq',
            InOrder.Gathered.contiguous_iff h done, not_lt]
        rw [calm, ← exactly]
        have after : Gathered (s.accept throws seq packet) := kept
        have failed : (s.accept throws seq packet).failed = s.failed ↔
            ∀ i, s.order.next ≤ i → i < (s.order.accept throws seq packet).next →
              throws i = false := by
          have length := kept.length
          rw [out, List.length_append, h.length] at length
          simp only [accept, out, h.length, ← length]
          rw [List.append_right_eq_self, List.map_eq_nil_iff, ← h.length, List.drop_left,
            filter_zipIdx_eq_nil, List.length_map, h.length]
        constructor
        · rintro ⟨⟨n, all, open_⟩, told⟩
          refine ⟨after.done ⟨⟨n, all, open_⟩, told⟩, failed.mp ?_⟩
          exact told.symm.trans served.2
        · rintro ⟨open_, quiet⟩
          exact ⟨⟨_, kept.out, open_⟩, served.2.trans (failed.mpr quiet).symm⟩

/-- **A consumer that fails.** Whatever the order of the packets: the consumer was called once
and in order for every packet whose turn came, with every failure reported, after each arrival
exactly if it throws at once on none of them. -/
theorem receiver_survives (h : exec (step options) start es = some s) :
    (∀ pre t, pre <+: es → exec (step options) start pre = some t → t.Served) ↔
      Run (step options) (Calm options) start es s := by
  have judged : ∀ s e s', Gathered s → Served s → step options s e = some s' →
      Gathered s' ∧ (Served s' ↔ Calm options s e) := fun _ _ _ => step_served
  exact exec_judged_iff judged InOrder.gathered_start ⟨⟨0, rfl, rfl⟩, rfl⟩ h

/-! Two packets, the second one first: a consumer whose first promise rejects, and one that
throws on the first event. -/

def numberedPacket (seq : Nat) : Json :=
  .obj [(lit "type", .str (lit "genai:stream")), (lit "seq", .ofNat seq),
    (lit "event", .obj [(lit "type", .str (lit "chunk")), (lit "chars", .ofNat seq)])]

def swapped (throws : Bool) : List Event :=
  [.packet (numberedPacket 1) fun _ => throws, .packet (numberedPacket 0) fun _ => throws]

theorem receiver_survives_rejection :
    ∃ s, exec (step ⟨none, false⟩) start (swapped false ++ [.settle 0 true]) = some s ∧
      s.Served := by
  have done : (exec (step ⟨none, false⟩) start (swapped false ++ [.settle 0 true])).isSome =
      true := by decide +kernel
  obtain ⟨s, hexec⟩ := Option.isSome_iff_exists.mp done
  have run : Run (step ⟨none, false⟩) (Calm ⟨none, false⟩) start
      (swapped false ++ [.settle 0 true]) s := by
    apply Run.of_events _ hexec
    intro e mem state
    simp only [swapped, List.cons_append, List.nil_append, List.mem_cons, List.not_mem_nil,
      or_false] at mem
    rcases mem with rfl | rfl | rfl
    · exact fun _ _ _ _ _ => rfl
    · exact fun _ _ _ _ _ => rfl
    · trivial
  exact ⟨s, hexec, (receiver_survives hexec).mpr run _ s List.prefix_rfl hexec⟩

/-- The consumer is not called for the second event, and nobody is told of the first. -/
theorem throwing_consumer_stops_loop :
    ∃ s, exec (step ⟨none, false⟩) start (swapped true) = some s ∧
      s.order.out = [numberedPacket 0] ∧ s.came.map Prod.fst = [0, 1] ∧ s.failed.length = 1 ∧
      s.reported = [] ∧ ¬s.Served := by
  have done : (exec (step ⟨none, false⟩) start (swapped true)).map (fun s =>
        (s.order.out, s.came.map Prod.fst, s.failed.length, s.reported)) =
      some ([numberedPacket 0], [0, 1], 1, []) := by
    decide +kernel
  obtain ⟨s, hexec, values⟩ := Option.map_eq_some_iff.mp done
  simp only [Prod.mk.injEq] at values
  obtain ⟨out, came, failed, reported⟩ := values
  refine ⟨s, hexec, out, came, failed, reported, fun served => ?_⟩
  rw [← served.2, reported] at failed
  cases failed

end GenAIStreamNetworkReceiver

end LemonModel
