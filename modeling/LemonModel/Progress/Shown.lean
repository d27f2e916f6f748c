import LemonModel.Socket.Envelope

/-!
# What a consumer shows of a reporter

The messages of a reporter reach a consumer late, more than once or not at all. The
consumer holds the newest snapshot that came of each task, and once the last one is
there, what the reporter was told.
-/

namespace LemonModel

open Text

/-! ## The message of a snapshot -/

/-- Every value is a document. -/
def ProgressFields.Documents (fields : ProgressFields) : Prop :=
  ∀ k v, fields k = some v → ∃ j, v = .json j ∧ j.Wf

theorem ProgressFields.documents_empty : ProgressFields.empty.Documents :=
  fun _ _ h => nomatch h

theorem ProgressFields.Documents.printable {fields : ProgressFields} (h : fields.Documents) :
    fields.Printable := by
  intro k hk
  obtain ⟨j, hj, -⟩ := h k _ hk
  cases hj

theorem mapM_mem {α β : Type} {f : α → Option β} {as : List α} {bs : List β}
    (h : as.mapM f = some bs) : ∀ b ∈ bs, ∃ a ∈ as, f a = some b := by
  induction as generalizing bs with
  | nil =>
    obtain rfl : [] = bs := by simpa using h
    exact fun _ hb => nomatch hb
  | cons a as ih =>
    rw [List.mapM_cons] at h
    obtain ⟨b, hb, h⟩ := Option.bind_eq_some_iff.mp h
    obtain ⟨rest, hrest, h⟩ := Option.bind_eq_some_iff.mp h
    obtain rfl : b :: rest = bs := Option.some.inj h
    refine List.forall_mem_cons.mpr ⟨⟨a, List.mem_cons_self, hb⟩, fun x hx => ?_⟩
    obtain ⟨a', mem, ha'⟩ := ih hrest x hx
    exact ⟨a', List.mem_cons_of_mem _ mem, ha'⟩

theorem mapM_fst {α β γ : Type} {f : α → Option (β × γ)} {g : α → β} {as : List α}
    {bs : List (β × γ)} (own : ∀ a b, f a = some b → b.1 = g a) (h : as.mapM f = some bs) :
    bs.map Prod.fst = as.map g := by
  induction as generalizing bs with
  | nil =>
    obtain rfl : [] = bs := by simpa using h
    rfl
  | cons a as ih =>
    rw [List.mapM_cons] at h
    obtain ⟨b, hb, h⟩ := Option.bind_eq_some_iff.mp h
    obtain ⟨rest, hrest, h⟩ := Option.bind_eq_some_iff.mp h
    obtain rfl : b :: rest = bs := Option.some.inj h
    rw [List.map_cons, List.map_cons, own a b hb, ih hrest]

theorem filterMap_sublist {α β : Type} {f : α → Option β} {g : α → β}
    (own : ∀ a b, f a = some b → b = g a) (as : List α) :
    (as.filterMap f).Sublist (as.map g) := by
  induction as with
  | nil => exact .slnil
  | cons a as ih =>
    rw [List.map_cons, List.filterMap_cons]
    cases hf : f a with
    | none => exact ih.cons _
    | some b =>
      rw [own a b hf]
      exact ih.cons_cons _

namespace ProgressState

variable {s : ProgressState} {data : Json} {members : List (JSString × Json)} {k : JSString}

/-- The keys of the fields that are there, in the order of the fields. -/
theorem members_keys (h : s.fields.members = some members) :
    (members.map Prod.fst).Sublist (ProgressField.all.map ProgressField.text) := by
  rw [mapM_fst (g := fun p => p.1.text) ?_ h, List.map_filterMap]
  · apply filterMap_sublist
    intro k key hk
    obtain ⟨p, hp, rfl⟩ := Option.map_eq_some_iff.mp hk
    obtain ⟨v, -, rfl⟩ := Option.map_eq_some_iff.mp hp
    rfl
  · rintro ⟨k, v⟩ b hb
    obtain ⟨j, -, rfl⟩ := Option.map_eq_some_iff.mp hb
    rfl

theorem isSome_members (printable : s.fields.Printable) : s.fields.members.isSome = true := by
  apply ProgressReporter.isSome_mapM
  intro p hp
  obtain ⟨k, -, hk⟩ := List.mem_filterMap.mp hp
  obtain ⟨v, hv, rfl⟩ := Option.map_eq_some_iff.mp hk
  cases v with
  | json j => rfl
  | unprintable => exact absurd hv (printable k)

/-- What is printed of a snapshot that has only documents. -/
theorem json_eq (documents : s.fields.Documents) :
    ∃ members, s.json = some (.obj ((lit "id", .str s.id) :: (lit "status", .str s.status.text) ::
        (members ++ [(lit "ts", .ofNat s.ts), (lit "seq", .ofNat s.seq)]))) ∧
      s.fields.members = some members ∧ (∀ p ∈ members, p.2.Wf) ∧
      (members.map Prod.fst).Sublist (ProgressField.all.map ProgressField.text) := by
  obtain ⟨members, found⟩ := Option.isSome_iff_exists.mp (isSome_members documents.printable)
  refine ⟨members, by rw [json, found]; rfl, found, fun p hp => ?_, members_keys found⟩
  obtain ⟨⟨k, v⟩, mem, hp⟩ := mapM_mem found p hp
  obtain ⟨k', -, hk⟩ := List.mem_filterMap.mp mem
  obtain ⟨v', hv, eq⟩ := Option.map_eq_some_iff.mp hk
  obtain ⟨rfl, rfl⟩ := Prod.mk.inj eq
  obtain ⟨j, rfl, wf⟩ := documents k' v' hv
  obtain ⟨j', hj, rfl⟩ := Option.map_eq_some_iff.mp hp
  cases hj
  exact wf

theorem lookup_members (free : k ∉ ProgressField.all.map ProgressField.text)
    (keys : (members.map Prod.fst).Sublist (ProgressField.all.map ProgressField.text))
    (rest : List (JSString × Json)) :
    (Json.obj (members ++ rest)).prop? k = (Json.obj rest).prop? k := by
  have absent : k ∉ members.map Prod.fst := fun mem => free (keys.subset mem)
  induction members with
  | nil => rfl
  | cons p members ih =>
    rw [List.map_cons, List.mem_cons, not_or] at absent
    rw [List.cons_append, prop?_cons, if_neg absent.1]
    exact ih ((List.sublist_cons_self _ _).trans keys) absent.2

/-- A snapshot on the wire. -/
structure Printed (s : ProgressState) (data : Json) : Prop where
  json : s.json = some data
  wf : data.Wf
  id : strField data (lit "id") = some s.id
  status : strField data (lit "status") = some s.status.text
  seq : data.prop? (lit "seq") = some (.ofNat s.seq)

theorem printed (documents : s.fields.Documents) : ∃ data, s.Printed data := by
  obtain ⟨members, json, -, wf, keys⟩ := json_eq documents
  refine ⟨_, json, ?_, ?_, ?_, ?_⟩
  · rw [Json.wf_obj]
    constructor
    · have whole : (lit "id" :: lit "status" :: (ProgressField.all.map ProgressField.text ++
          [lit "ts", lit "seq"])).Nodup := by decide
      refine whole.sublist ?_
      simp only [List.map_cons, List.map_append, List.map_nil]
      exact ((keys.append_right _).cons_cons _).cons_cons _
    · intro p hp
      simp only [List.mem_cons, List.mem_append, List.not_mem_nil, or_false] at hp
      rcases hp with rfl | rfl | hp | rfl | rfl
      · simp
      · simp
      · exact wf p hp
      · simp
      · simp
  · rw [strField, prop?_cons, if_pos rfl]
    rfl
  · rw [strField, prop?_cons, if_neg (by decide), prop?_cons, if_pos rfl]
    rfl
  · rw [prop?_cons, if_neg (by decide), prop?_cons, if_neg (by decide),
      lookup_members (by decide) keys, prop?_cons, if_neg (by decide), prop?_cons, if_pos rfl]

/-- `{ type, data: state, mid }` -/
def Printed.envelope (h : s.Printed data) (type : JSString) (mid : Nat) : Envelope where
  type := type
  rest := [(lit "data", data), (lit "mid", .str (unit 'p' :: natText mid))]
  wf := by
    rw [Json.wf_obj]
    simp +decide [h.wf]

/-- What a consumer reads of the message of a snapshot. -/
theorem Printed.read (h : s.Printed data) {typePrefix type : JSString}
    (listens : LogTraceReporter.Listens typePrefix type) (mid : Nat) :
    ProgressConsumer.readState typePrefix (h.envelope type mid).raw = some ⟨s.id, s.seq, data⟩ := by
  have marker := (h.envelope type mid).marker_raw listens.printed
  have starts : typePrefix.isPrefixOf (h.envelope type mid).type = true :=
    List.isPrefixOf_iff_prefix.mpr listens.starts
  have field : (h.envelope type mid).document.prop? (lit "data") = some data := by
    rw [Envelope.document, prop?_cons, if_neg (by decide)]
    exact (prop?_cons ..).trans (if_pos rfl)
  have seq := h.seq
  unfold ProgressConsumer.readState ProgressConsumer.rawKey
  simp only [marker, guard, if_true, Envelope.parse_raw, Envelope.strField_type, starts, field,
    h.id, seq, bind, Option.bind_some, pure, Json.ofNat, Decimal.value_ofNat]

end ProgressState

/-! ## The newest snapshot that came -/

/-- The snapshot of `id` with the greatest `seq`; of equal ones the first. -/
def newest (came : List ProgressSnapshot) (id : JSString) : Option ProgressSnapshot :=
  came.foldl (fun best s => if s.id = id ∧ best.all (·.seq < s.seq) then some s else best) none

variable {came : List ProgressSnapshot} {id : JSString} {s : ProgressSnapshot}

theorem newest_append (came : List ProgressSnapshot) (id : JSString) (s : ProgressSnapshot) :
    newest (came ++ [s]) id =
      if s.id = id ∧ (newest came id).all (·.seq < s.seq) then some s else newest came id := by
  rw [newest, List.foldl_append]
  rfl

theorem newest_none (h : newest came id = none) : ∀ x ∈ came, x.id ≠ id := by
  induction came using List.reverseRecOn with
  | nil => exact fun _ hx => nomatch hx
  | append_singleton came last ih =>
    rw [newest_append] at h
    split at h
    · cases h
    · rename_i loses
      intro x hx same
      rcases List.mem_append.mp hx with hx | hx
      · exact ih h x hx same
      · rw [List.mem_singleton.mp hx] at same
        exact loses ⟨same, by rw [h]; rfl⟩

/-- It came, and nothing that came of the task is newer. -/
theorem newest_spec (h : newest came id = some s) :
    s ∈ came ∧ s.id = id ∧ ∀ x ∈ came, x.id = id → x.seq ≤ s.seq := by
  induction came using List.reverseRecOn generalizing s with
  | nil => cases h
  | append_singleton came last ih =>
    rw [newest_append] at h
    split at h
    · rename_i wins
      obtain ⟨own, newer⟩ := wins
      cases h
      refine ⟨by simp, own, fun x hx same => ?_⟩
      rcases List.mem_append.mp hx with hx | hx
      · cases before : newest came id with
        | none => exact absurd same (newest_none before x hx)
        | some best =>
          rw [before] at newer
          obtain ⟨-, -, most⟩ := ih before
          have less : best.seq < last.seq := by simpa using newer
          exact (most x hx same).trans less.le
      · rw [List.mem_singleton.mp hx]
    · rename_i loses
      obtain ⟨mem, own, most⟩ := ih h
      refine ⟨List.mem_append_left _ mem, own, fun x hx same => ?_⟩
      rcases List.mem_append.mp hx with hx | hx
      · exact most x hx same
      · rw [List.mem_singleton.mp hx] at same ⊢
        rw [h] at loses
        have : ¬ s.seq < last.seq := fun less => loses ⟨same, by simpa using less⟩
        exact not_lt.mp this

/-! ## A consumer with room for every task -/

namespace ProgressConsumer

variable {c c' : ProgressConsumer} {ids : List JSString}

/-- The snapshots that events bring. -/
def brought (typePrefix : JSString) : ConsumerEvent → Option ProgressSnapshot
  | .message raw => readState typePrefix raw
  | _ => none

/-- The store has the newest of what came, and room for the tasks `ids`. -/
structure Holds (ids : List JSString) (came : List ProgressSnapshot) (c : ProgressConsumer) :
    Prop where
  room : (ids.length : ℚ) ≤ c.maxTasks
  known : ∀ s ∈ came, s.id ∈ ids
  store : ∀ id, c.store.get? id = newest came id

theorem size_le_of_subset {κ ν : Type} [DecidableEq κ] {d : Dict κ ν} {ks : List κ}
    (h : ∀ k ∈ d.keys, k ∈ ks) : d.size ≤ ks.length := by
  rw [← d.length_keys]
  exact (d.nodup.subperm h).length_le

theorem holds_receive (h : Holds ids came c) (known : s.id ∈ ids) :
    Holds ids (came ++ [s]) (c.receive s) := by
  have all : ∀ x ∈ came ++ [s], x.id ∈ ids := by
    intro x hx
    rcases List.mem_append.mp hx with hx | hx
    · exact h.known x hx
    · rw [List.mem_singleton.mp hx]
      exact known
  have stored := h.store s.id
  unfold receive
  split
  · rename_i existing present
    rw [stored] at present
    have own := (newest_spec present).2.1
    split
    · rename_i old
      refine ⟨h.room, all, fun id => ?_⟩
      rw [newest_append, if_neg]
      · exact h.store id
      · rintro ⟨rfl, newer⟩
        rw [present] at newer
        exact absurd old (not_le.mpr (by simpa using newer))
    · rename_i new
      refine ⟨h.room, all, fun id => ?_⟩
      show (c.store.set s.id s).get? id = _
      rw [Dict.get?_set, newest_append]
      by_cases same : id = s.id
      · rw [if_pos same, if_pos]
        subst same
        rw [present]
        exact ⟨rfl, by simpa using new⟩
      · rw [if_neg same, if_neg fun both => same both.1.symm]
        exact h.store id
  · rename_i absent
    rw [stored] at absent
    have fits : ((c.store.set s.id s).size : ℚ) ≤ c.maxTasks := by
      refine le_trans ?_ h.room
      have : (c.store.set s.id s).size ≤ ids.length := by
        apply size_le_of_subset
        intro k hk
        obtain ⟨v, hv⟩ := Dict.mem_keys.mp hk
        rw [Dict.get?_set] at hv
        split at hv
        · rename_i same
          rw [same]
          exact known
        · rw [h.store] at hv
          obtain ⟨mem, own, -⟩ := newest_spec hv
          rw [← own]
          exact h.known v mem
      exact_mod_cast this
    refine ⟨h.room, all, fun id => ?_⟩
    show (evict c.maxTasks (c.store.set s.id s) s.id).get? id = _
    rw [evict, if_pos fits, Dict.get?_set, newest_append]
    by_cases same : id = s.id
    · rw [if_pos same, if_pos]
      subst same
      rw [absent]
      exact ⟨rfl, rfl⟩
    · rw [if_neg same, if_neg fun both => same both.1.symm]
      exact h.store id

/-- It keeps its options, and a closed one stays closed. -/
theorem step_later {e : ConsumerEvent} (hstep : c.step e = some c') :
    c'.typePrefix = c.typePrefix ∧ (c.closed = true → c'.closed = true) := by
  cases e with
  | message raw =>
    obtain rfl := Option.some.inj hstep
    split
    · unfold receive
      split
      · split <;> exact ⟨rfl, id⟩
      · exact ⟨rfl, id⟩
    · exact ⟨rfl, id⟩
  | onChange handler =>
    simp only [step] at hstep
    split at hstep <;> cases hstep <;> exact ⟨rfl, id⟩
  | unsubscribe handler => cases hstep; exact ⟨rfl, id⟩
  | close => cases hstep; exact ⟨rfl, fun _ => rfl⟩

theorem holds_step {e : ConsumerEvent} (h : Holds ids came c) (isOpen : c.closed = false)
    (known : ∀ s ∈ brought c.typePrefix e, s.id ∈ ids) (hstep : c.step e = some c') :
    Holds ids (came ++ (brought c.typePrefix e).toList) c' := by
  cases e with
  | message raw =>
    obtain rfl := Option.some.inj hstep
    simp only [arrival, isOpen, Bool.false_eq_true, if_false, brought] at known ⊢
    cases read : readState c.typePrefix raw with
    | none => simpa using h
    | some s => exact holds_receive h (known s read)
  | onChange handler =>
    simp only [step] at hstep
    split at hstep <;> cases hstep <;> simpa [brought] using ⟨h.room, h.known, h.store⟩
  | unsubscribe handler | close =>
    cases hstep
    simpa [brought] using ⟨h.room, h.known, h.store⟩

/-- **The run lemma.** -/
theorem holds_run {ds : List ConsumerEvent} (run : exec step c ds = some c')
    (isOpen : c'.closed = false) (h : Holds ids came c)
    (known : ∀ s ∈ ds.filterMap (brought c.typePrefix), s.id ∈ ids) :
    Holds ids (came ++ ds.filterMap (brought c.typePrefix)) c' := by
  induction ds generalizing c came with
  | nil =>
    obtain rfl : c = c' := by simpa [exec] using run
    simpa using h
  | cons e ds ih =>
    obtain ⟨c₁, hstep, rest⟩ := Option.bind_eq_some_iff.mp run
    obtain ⟨same, stays⟩ := step_later hstep
    have closes : c₁.closed = true → c'.closed = true :=
      exec_invariant (fun c => c.closed = true) (fun _ _ _ closed step => (step_later step).2 closed)
        rest
    have before : c.closed = false := by
      rw [← Bool.not_eq_true]
      intro closed
      rw [closes (stays closed)] at isOpen
      cases isOpen
    have split : (e :: ds).filterMap (brought c.typePrefix) =
        (brought c.typePrefix e).toList ++ ds.filterMap (brought c.typePrefix) := by
      rw [List.filterMap_cons]
      cases brought c.typePrefix e <;> rfl
    rw [split] at known ⊢
    rw [← List.append_assoc, ← same]
    rw [← same] at known
    have first := holds_step h before
      (fun s hs => known s (List.mem_append_left _ (by rw [same]; simpa using hs))) hstep
    rw [← same] at first
    exact ih rest first fun s hs => known s (List.mem_append_right _ hs)

end ProgressConsumer

/-! ## A reporter that is given documents -/

/-- The values are documents, and the observer does not throw. -/
structure Sensible (e : ReporterEvent × Surroundings) : Prop where
  typed : e.1.Typed
  patch : e.1.patch.Documents
  measure : ∀ id measure, e.2.measure id = some measure → measure.Documents
  observer : ∀ id why, e.2.observer id why = false

theorem Sensible.quiet {e : ReporterEvent × Surroundings} (h : Sensible e) : Quiet e :=
  ⟨h.typed, h.patch.printable, fun id m hm => (h.measure id m hm).printable, h.observer⟩

namespace ProgressFields

variable {a b : ProgressFields}

theorem Documents.assign (ha : a.Documents) (hb : b.Documents) : (a.assignDefined b).Documents := by
  intro k v hv
  rcases Option.or_eq_some_iff.mp hv with own | ⟨-, old⟩
  · exact hb k v own
  · exact ha k v old

theorem Documents.merge (ha : a.Documents) (hb : b.Documents) :
    (ProgressReporter.merge a b).Documents := by
  intro k v hv
  rcases Option.or_eq_some_iff.mp hv with own | ⟨-, filled⟩
  · exact ha k v own
  · split at filled
    · exact hb k v filled
    · cases filled

theorem Documents.put {k : ProgressField} {j : Json} (ha : a.Documents) (wf : j.Wf) :
    (a.put k (.json j)).Documents := by
  intro k' v hv
  unfold ProgressFields.put at hv
  split at hv
  · exact ⟨j, (Option.some.inj hv).symm, wf⟩
  · exact ha k' v hv

end ProgressFields

namespace ProgressReporter

variable {env : Surroundings} {r r' : ProgressReporter} {id : JSString} {t : ProgressTask}

/-- Everything there is to be sent, and was sent, is documents. -/
structure Documented (r : ProgressReporter) : Prop where
  task : ∀ id t, r.tasks.get? id = some t → t.state.fields.Documents
  sent : ∀ s ∈ r.sent, s.fields.Documents

theorem documented_create (type : Option JSString) (throttleMs heartbeatMs maxPacketBytes : Option ℚ) :
    (create type throttleMs heartbeatMs maxPacketBytes).Documented :=
  ⟨fun _ _ h => (nomatch h), fun _ h => (nomatch h)⟩

theorem documented_put (h : r.Documented) (own : t.state.fields.Documents) :
    (r.put id t).Documented := by
  refine ⟨fun id' t' ht => ?_, h.sent⟩
  change (r.tasks.set id t).get? id' = some t' at ht
  rw [Dict.get?_set] at ht
  split at ht
  · obtain rfl := Option.some.inj ht
    exact own
  · exact h.task id' t' ht

theorem documented_dispatch {data : ProgressState} (h : r.Documented)
    (own : t.state.fields.Documents) (said : data.fields.Documents) :
    (r.dispatch env id t data).1.Documented := by
  refine ⟨(documented_put (t := { t with last := data, mid := r.mid }) h own).task, fun s hs => ?_⟩
  rcases List.mem_cons.mp hs with rfl | hs
  · exact said
  · exact h.sent s hs

theorem documented_pack {s : ProgressState} (h : r.Documented) (own : t.state.fields.Documents)
    (said : s.fields.Documents) : (r.pack env id t s).1.Documented := by
  have counted : ({ r with mid := r.mid + 1 } : ProgressReporter).Documented := ⟨h.task, h.sent⟩
  have stripped : (strip s).fields.Documents := by
    intro k v hv
    unfold strip at hv
    dsimp only at hv
    split at hv
    · cases hv
    · exact said k v hv
  unfold pack
  dsimp only
  split
  · exact documented_dispatch counted own said
  · split
    · exact documented_put counted own
    · split
      · split
        · exact documented_put counted own
        · exact documented_dispatch counted own stripped
      · exact documented_dispatch counted own said

theorem documented_emit (h : r.Documented) (own : t.state.fields.Documents)
    (measured : ∀ measure, env.measure id = some measure → measure.Documents) :
    (r.emit env id t).1.Documented := by
  have counted : ({ r with seq := r.seq + 1 } : ProgressReporter).Documented := ⟨h.task, h.sent⟩
  unfold emit
  dsimp only
  split
  · split
    · rename_i measure found
      exact documented_pack counted own (own.merge (measured measure found))
    · split
      · exact documented_put counted own
      · exact documented_pack counted own own
  · exact documented_pack counted own own

theorem documented_emitOpening (h : r.Documented) (own : t.state.fields.Documents)
    (measured : ∀ measure, env.measure id = some measure → measure.Documents) :
    (r.emitOpening env id t).1.Documented := by
  have emitted : (r.emit env id t).1.Documented := documented_emit h own measured
  unfold emitOpening
  split
  · rename_i r₁ eq
    rw [eq] at emitted
    exact emitted
  · rename_i r₁ eq
    rw [eq] at emitted
    unfold openWindow
    split
    · rename_i t' known
      exact documented_put emitted (emitted.task id t' known)
    · exact emitted

theorem documented_finish {status : ProgressStatus} {patch : ProgressFields} (h : r.Documented)
    (own : t.state.fields.Documents) (more : patch.Documents)
    (measured : ∀ measure, env.measure id = some measure → measure.Documents) :
    (r.finish env id t status patch).1.Documented := by
  unfold finish
  split
  · exact documented_put h own
  · exact documented_emit h (own.assign more) measured

theorem documented_forEach
    {visit : ProgressReporter → JSString → ProgressTask → ProgressReporter × Bool}
    (visits : ∀ r id t, Documented r → r.tasks.get? id = some t → (visit r id t).1.Documented)
    (ids : List JSString) (h : r.Documented) : (forEach visit ids r).1.Documented := by
  induction ids generalizing r with
  | nil => exact h
  | cons id ids ih =>
    unfold forEach
    split
    · rename_i t known
      have visited := visits r id t h known
      split
      · rename_i r₁ eq
        rw [eq] at visited
        exact visited
      · rename_i r₁ eq
        rw [eq] at visited
        exact ih visited
    · exact ih h

/-- **The step lemma.** -/
theorem documented_handle {e : ReporterEvent} {p : ProgressReporter × Bool} (h : r.Documented)
    (sensible : Sensible (e, env)) (hp : r.handle env e = some p) : p.1.Documented := by
  obtain ⟨-, patch, measured, -⟩ := sensible
  cases e with
  | start id initial gauge =>
    obtain rfl := Option.some.inj hp
    unfold start
    split
    · exact h
    · exact documented_emit h (ProgressFields.documents_empty.assign patch) (measured id)
  | update id status rest =>
    obtain ⟨t, ht, rfl⟩ := Option.map_eq_some_iff.mp hp
    have own := (h.task id t ht).assign patch
    unfold update
    split
    · exact h
    · dsimp only
      split
      · exact documented_emit h own (measured id)
      · split
        · exact documented_put h own
        · exact documented_emitOpening h own (measured id)
  | done id patch' =>
    obtain ⟨t, ht, rfl⟩ := Option.map_eq_some_iff.mp hp
    exact documented_finish h (h.task id t ht) patch (measured id)
  | error id message patch' =>
    obtain ⟨t, ht, rfl⟩ := Option.map_eq_some_iff.mp hp
    exact documented_finish h ((h.task id t ht).put (Json.wf_str message)) patch (measured id)
  | timer id =>
    obtain ⟨t, ht, -, rfl⟩ := handle_timer hp
    unfold fireTimer
    dsimp only
    split
    · exact documented_put h (h.task id t ht)
    · exact documented_emitOpening h (h.task id t ht) (measured id)
  | heartbeat =>
    obtain rfl := handle_heartbeat hp
    refine documented_forEach (fun r id t h known => ?_) _ h
    unfold beat
    split
    · exact documented_emit h (h.task id t known) (measured id)
    · exact h
  | close =>
    obtain rfl := Option.some.inj hp
    refine documented_forEach (fun r id t h known => ?_) _ ⟨h.task, h.sent⟩
    unfold flush
    dsimp only
    split
    · exact documented_emit h (h.task id t known) (measured id)
    · exact documented_put h (h.task id t known)

theorem documented_run {es : List (ReporterEvent × Surroundings)}
    (run : Run step (fun _ e => Sensible e) r es r') (h : r.Documented) : r'.Documented := by
  apply run.invariant Documented _ h
  intro r e r' h sensible hstep
  obtain ⟨p, hp, rfl⟩ := Option.map_eq_some_iff.mp hstep
  exact documented_handle h sensible hp

/-! ## From the reporter to the consumer -/

/-- `raw` is the message of `s`, under some message id. -/
def IsMessage (type : JSString) (s : ProgressState) (raw : JSString) : Prop :=
  ∃ data, ∃ h : s.Printed data, ∃ mid, raw = (h.envelope type mid).raw

/-- Whatever the consumer reads is a message of the reporter. -/
def Relays (r : ProgressReporter) (typePrefix : JSString) (ds : List ConsumerEvent) : Prop :=
  ∀ raw, .message raw ∈ ds → ProgressConsumer.readState typePrefix raw = none ∨
    ∃ s ∈ r.sent, IsMessage r.type s raw

/-- Of the snapshots of a task the one found first is the newest. -/
theorem find_newest {sent : List ProgressState} {last : ProgressState}
    (rising : sent.Pairwise fun later earlier => earlier.seq < later.seq)
    (found : (sent.find? fun s => s.id = id) = some last) :
    ∀ s ∈ sent, s.id = id → s = last ∨ s.seq < last.seq := by
  induction sent with
  | nil => exact fun _ hs => nomatch hs
  | cons first sent ih =>
    obtain ⟨older, rising⟩ := List.pairwise_cons.mp rising
    intro s hs own
    by_cases here : first.id = id
    · rw [List.find?_cons_of_pos (by simpa using here)] at found
      cases found
      rcases List.mem_cons.mp hs with rfl | hs
      · exact .inl rfl
      · exact .inr (older s hs)
    · rw [List.find?_cons_of_neg (by simpa using here)] at found
      rcases List.mem_cons.mp hs with rfl | hs
      · exact absurd own here
      · exact ih rising found s hs own

variable {typePrefix : JSString} {ds : List ConsumerEvent} {snap : ProgressSnapshot}

/-- What came is of the reporter. -/
theorem came_of (relays : r.Relays typePrefix ds)
    (listens : LogTraceReporter.Listens typePrefix r.type)
    (came : snap ∈ ds.filterMap (ProgressConsumer.brought typePrefix)) :
    ∃ s ∈ r.sent, s.id = snap.id ∧ (s.seq : ℚ) = snap.seq ∧ s.json = some snap.state ∧
      ∃ raw, IsMessage r.type s raw ∧ .message raw ∈ ds := by
  obtain ⟨d, hd, read⟩ := List.mem_filterMap.mp came
  cases d with
  | message raw =>
    change ProgressConsumer.readState typePrefix raw = some snap at read
    rcases relays raw hd with none | ⟨s, hs, data, h, mid, rfl⟩
    · rw [none] at read
      cases read
    · rw [h.read listens mid] at read
      cases read
      exact ⟨s, hs, rfl, rfl, h.json, _, ⟨data, h, mid, rfl⟩, hd⟩
  | onChange handler | unsubscribe handler | close => cases read

theorem came_to {s : ProgressState} {raw : JSString}
    (listens : LogTraceReporter.Listens typePrefix r.type) (message : IsMessage r.type s raw)
    (hd : .message raw ∈ ds) :
    ∃ data, s.json = some data ∧
      ⟨s.id, s.seq, data⟩ ∈ ds.filterMap (ProgressConsumer.brought typePrefix) := by
  obtain ⟨data, h, mid, rfl⟩ := message
  exact ⟨data, h.json, List.mem_filterMap.mpr ⟨_, hd, h.read listens mid⟩⟩

/-- **The consumer shows what was told.** A reporter is given documents, and a consumer
with room for its tasks gets its messages in any order, some more than once and some not
at all, among others that it does not read. The consumer shows of a task the newest
snapshot that came. Once the last one that was sent of the task has come it shows that
one, and with nothing held back by the throttle this is what the reporter was told. -/
theorem consumer_shows_what_was_told {type : Option JSString}
    {throttleMs heartbeatMs maxPacketBytes : Option ℚ} {es : List (ReporterEvent × Surroundings)}
    {typePrefix : Option JSString} {maxTasks : Option ℚ} {c : ProgressConsumer}
    (run : Run step (fun _ e => Sensible e) (create type throttleMs heartbeatMs maxPacketBytes) es r)
    (listens : LogTraceReporter.Listens (typePrefix.getD (lit "progress:")) r.type)
    (room : (r.tasks.size : ℚ) ≤ max 1 (maxTasks.getD 100))
    (relays : r.Relays (typePrefix.getD (lit "progress:")) ds)
    (shown : exec ProgressConsumer.step (.create typePrefix maxTasks) ds = some c)
    (isOpen : c.closed = false) :
    (∀ id snap, c.store.get? id = some snap →
      ∃ s ∈ r.sent, s.id = id ∧ s.json = some snap.state ∧
        (∃ raw, IsMessage r.type s raw ∧ .message raw ∈ ds) ∧
        ∀ s' ∈ r.sent, s'.id = id → (∃ raw, IsMessage r.type s' raw ∧ .message raw ∈ ds) →
          s'.seq ≤ s.seq) ∧
      ∀ id t, r.tasks.get? id = some t → (∃ raw, IsMessage r.type t.last raw ∧ .message raw ∈ ds) →
        (∃ snap, c.store.get? id = some snap ∧ t.last.json = some snap.state) ∧
          (t.dirty = false → Reflects r.type r.maxPacketBytes t.mid t.last (explicit id es)) := by
  have told := noLoss_run (run.weaken fun _ _ => Sensible.quiet)
    (noLoss_create type throttleMs heartbeatMs maxPacketBytes)
  have start : ProgressConsumer.Holds r.tasks.keys [] (.create typePrefix maxTasks) :=
    ⟨by rw [r.tasks.length_keys]; exact room, fun _ hs => (nomatch hs), fun _ => rfl⟩
  have holds := ProgressConsumer.holds_run shown isOpen start fun snap came => by
    obtain ⟨s, hs, own, -⟩ := came_of relays listens came
    rw [Dict.mem_keys]
    cases known : r.tasks.get? snap.id with
    | some t => exact ⟨t, rfl⟩
    | none => exact absurd own ((told.absent snap.id known).2 s hs)
  rw [List.nil_append] at holds
  have newestShown : ∀ id snap, c.store.get? id = some snap →
      ∃ s ∈ r.sent, s.id = id ∧ s.json = some snap.state ∧
        (∃ raw, IsMessage r.type s raw ∧ .message raw ∈ ds) ∧
        ∀ s' ∈ r.sent, s'.id = id → (∃ raw, IsMessage r.type s' raw ∧ .message raw ∈ ds) →
          s'.seq ≤ s.seq := by
    intro id snap stored
    rw [holds.store] at stored
    obtain ⟨came, own, most⟩ := newest_spec stored
    obtain ⟨s, hs, same, seq, json, said⟩ := came_of relays listens came
    refine ⟨s, hs, same.trans own, json, said, fun s' _ own' ⟨raw, message, hd⟩ => ?_⟩
    obtain ⟨data, -, came'⟩ := came_to listens message hd
    have le : (s'.seq : ℚ) ≤ snap.seq := most _ came' own'
    rw [← seq] at le
    exact_mod_cast le
  refine ⟨newestShown, fun id t ht ⟨raw, message, hd⟩ => ?_⟩
  have ok := told.task id t ht
  have newestSent := find_newest told.rising ok.newest
  have lastId : t.last.id = id := by simpa using List.find?_some ok.newest
  refine ⟨?_, ok.clean⟩
  obtain ⟨data, -, came⟩ := came_to listens message hd
  cases stored : c.store.get? id with
  | none =>
    rw [holds.store] at stored
    exact absurd lastId (newest_none stored _ came)
  | some snap =>
    refine ⟨snap, rfl, ?_⟩
    obtain ⟨s, hs, own, json, -, most⟩ := newestShown id snap stored
    rcases newestSent s hs own with rfl | older
    · exact json
    · have newer := most t.last (List.mem_of_find?_eq_some ok.newest) lastId ⟨raw, message, hd⟩
      omega

/-! The messages of the task in a throttle window, the newest first. -/

def relayed (r : ProgressReporter) : List ConsumerEvent :=
  r.sent.map fun s => .message ((s.json.map fun data => (Json.obj [(lit "type", .str r.type),
    (lit "data", data), (lit "mid", .str (unit 'p' :: natText 0))]).text).getD [])

theorem relays_relayed (h : r.Documented) (typePrefix : JSString) :
    r.Relays typePrefix r.relayed ∧ ∀ s ∈ r.sent, ∃ raw, IsMessage r.type s raw ∧
      .message raw ∈ r.relayed := by
  have each : ∀ s ∈ r.sent, ∃ raw, IsMessage r.type s raw ∧
      raw = ((s.json.map fun data => (Json.obj [(lit "type", .str r.type),
        (lit "data", data), (lit "mid", .str (unit 'p' :: natText 0))]).text).getD []) := by
    intro s hs
    obtain ⟨data, printed⟩ := ProgressState.printed (h.sent s hs)
    refine ⟨_, ⟨data, printed, 0, rfl⟩, ?_⟩
    rw [printed.json]
    rfl
  refine ⟨fun raw mem => .inr ?_, fun s hs => ?_⟩
  · obtain ⟨s, hs, eq⟩ := List.mem_map.mp mem
    obtain ⟨raw', message, rfl⟩ := each s hs
    rw [ConsumerEvent.message.injEq] at eq
    exact ⟨s, hs, eq ▸ message⟩
  · obtain ⟨raw, message, rfl⟩ := each s hs
    exact ⟨_, message, List.mem_map.mpr ⟨s, hs, rfl⟩⟩

theorem sensible_calm {e : ReporterEvent} (typed : e.Typed) (patch : e.patch.Documents) :
    Sensible (e, calm) :=
  ⟨typed, patch, fun _ _ h => (nomatch h), fun _ _ => rfl⟩

theorem documents_percent (n : Nat) : (percent n).Documents :=
  ProgressFields.documents_empty.put (Json.wf_ofNat n)

theorem consumer_shows_what_was_told_throttled :
    ∃ r c, exec step (create none (some 100) none none) throttled = some r ∧
      exec ProgressConsumer.step (.create none none) r.relayed = some c ∧
      ∀ t, r.tasks.get? (lit "t") = some t → t.dirty = false →
        (∃ snap, c.store.get? (lit "t") = some snap ∧ t.last.json = some snap.state) ∧
          Reflects r.type r.maxPacketBytes t.mid t.last (explicit (lit "t") throttled) := by
  have done : ((exec step (create none (some 100) none none) throttled).bind fun r =>
      (exec ProgressConsumer.step (.create none none) r.relayed).map fun c =>
        (r.type, r.tasks.size, c.closed)) = some (lit "progress:update", 1, false) := by
    decide +kernel
  obtain ⟨r, hr, done⟩ := Option.bind_eq_some_iff.mp done
  obtain ⟨c, hc, eq⟩ := Option.map_eq_some_iff.mp done
  obtain ⟨type, size, isOpen⟩ : r.type = lit "progress:update" ∧ r.tasks.size = 1 ∧
      c.closed = false := by simpa using eq
  have run : Run step (fun _ e => Sensible e) (create none (some 100) none none) throttled r := by
    apply Run.of_events _ hr
    intro e he _
    have empty := ProgressFields.documents_empty
    simp only [throttled, List.map_cons, List.map_nil, List.mem_cons, List.not_mem_nil, or_false]
      at he
    rcases he with rfl | rfl | rfl | rfl | rfl | rfl
    · exact sensible_calm trivial empty
    · exact sensible_calm (.inr (.inl rfl)) (documents_percent 1)
    · exact sensible_calm (.inr (.inr rfl)) (documents_percent 2)
    · exact sensible_calm trivial empty
    · exact sensible_calm (.inr (.inr rfl)) (documents_percent 3)
    · exact sensible_calm trivial empty
  have documented := documented_run run (documented_create none (some 100) none none)
  obtain ⟨relays, each⟩ := relays_relayed documented ((none : Option JSString).getD (lit "progress:"))
  have all := consumer_shows_what_was_told run
    (by rw [type]; exact ⟨by decide, by decide⟩)
    (by rw [size]; norm_num) relays hc isOpen
  refine ⟨r, c, hr, hc, fun t ht clean => ?_⟩
  have told := noLoss_run (run.weaken fun _ _ => Sensible.quiet)
    (noLoss_create none (some 100) none none)
  have sent := List.mem_of_find?_eq_some (told.task _ t ht).newest
  obtain ⟨stored, reflects⟩ := all.2 _ t ht (each _ sent)
  exact ⟨stored, reflects clean⟩

end ProgressReporter

end LemonModel
