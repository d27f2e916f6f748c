import LemonModel.Transport.Recover
import LemonModel.Transport.Honoured
import LemonModel.Transport.Emitted

/-!
# What a resolved send means

A send resolves when an ack for it arrives. Between two reliable transports an ack of a tid
goes out only after an emission, what is emitted was put together from packets of that
tid, and all of these come from one send.
-/

namespace LemonModel

open Text

variable {o o' : ReliableOptions} {x tid : JSString} {data : Json} {log older newer : List Effect}
  {Meant : Json → Prop} {c c' : Config} {e : Event}

/-! ## What the packets of a message bring -/

variable {cid : Nat → JSString} {split : JSONSplitResult} {pieces : List Piece} {doc : Json}
  {s : JSONReceiveState} {l l' : List JSONTransportPacket} {q : JSONTransportPacket}

/-- The state a receiver builds from packets of the message, some of them damaged. -/
def Builds (split : JSONSplitResult) (s : JSONReceiveState) : Prop :=
  (validateManifest split.manifest = none → ∃ l, Mixed split l ∧ Buffered split l s) ∧
    (validateManifest split.manifest ≠ none → s.manifest = none)

theorem builds_opened (split : JSONSplitResult) (v : View) (now : Nat)
    (h : ∀ s, v.state = some s → Builds split s) : Builds split (v.opened split.tid now) := by
  have start : Builds split (.fresh split.tid now) :=
    ⟨fun _ => ⟨[], by simp [Mixed], buffered_fresh split split.tid now⟩, fun _ => rfl⟩
  have known : Builds split (v.state.getD (.fresh split.tid now)) := by
    cases hs : v.state with
    | none => exact start
    | some s => exact h s hs
  refine ⟨fun valid => ?_, known.2⟩
  obtain ⟨l, mixed, buffered⟩ := known.1 valid
  exact ⟨l, mixed, buffered.touch now⟩

theorem Mixed.snoc (h : Mixed split l) (came : q ∈ split.packets ∨ ∃ p ∈ split.packets, Garbled p q) :
    Mixed split (l ++ [q]) := by
  intro p hp
  rcases List.mem_append.mp hp with hp | hp
  · exact h p hp
  · rw [List.mem_singleton.mp hp]
    exact came

/-- A packet that comes once more, or for the first time. -/
theorem Buffered.again (b : Buffered split l s) (made : MadeOf cid split pieces doc)
    (sound : Sound pieces) (mixed : Mixed split l)
    (came : q ∈ split.packets ∨ ∃ p ∈ split.packets, Garbled p q) (now : Nat) :
    ∃ l' s' reports out, Mixed split l' ∧ LemonModel.absorb true now s q = (s', reports, out) ∧
      Buffered split l' s' ∧ Yields split doc l' out := by
  by_cases twice : .manifest split.manifest ∈ l ∧ q = .manifest split.manifest
  · obtain ⟨there, rfl⟩ := twice
    have known : s.manifest = some split.manifest := b.manifest.trans (if_pos there)
    have cleared : Cleared split l := fun _ c mem _ => own_chunk made (mixed.admitted c mem).1
    obtain ⟨reports, out, finished, yields⟩ := b.finish made sound cleared []
    refine ⟨l, s, reports, out, mixed, ?_, b, yields⟩
    simp only [LemonModel.absorb, acceptManifest, known, if_true]
    exact finished
  · have more := mixed.snoc came
    obtain ⟨s', reports, out, absorbed, buffered, yields⟩ := b.absorb made sound (more.bound made)
      (fun there same => twice ⟨there, same⟩) true now
    exact ⟨_, s', reports, out, more, absorbed, buffered, yields⟩

/-- **A packet of the message, damaged or not.** -/
theorem honest_packet (made : MadeOf cid split pieces doc)
    (means : validateManifest split.manifest = none → Meant doc)
    (came : q ∈ split.packets ∨ ∃ p ∈ split.packets, Garbled p q) :
    Honest split.tid Meant (Builds split) q := by
  intro v now s reports out holds absorbed
  have opened := builds_opened split v now holds
  cases valid : validateManifest split.manifest with
  | none =>
    have sound := (validateManifest_none made).mp valid
    obtain ⟨l, mixed, buffered⟩ := opened.1 valid
    obtain ⟨l', s', reports', out', mixed', absorbed', buffered', yields⟩ :=
      buffered.again made sound mixed came now
    rw [absorbed'] at absorbed
    cases absorbed
    refine ⟨⟨fun _ => ⟨l', mixed', buffered'⟩, fun bad => absurd valid bad⟩, ?_⟩
    rintro j rfl
    obtain ⟨due, -, same⟩ := yields.due j rfl
    obtain rfl := same.mpr (mixed'.harmless made sound ((mixed'.due_iff made sound).mp due)).truthful
    exact means valid
  | some r =>
    have bad : validateManifest split.manifest ≠ none := by
      rw [valid]
      exact Option.some_ne_none r
    have refused : ∀ m, q = .manifest m → validateManifest m ≠ none := by
      rintro m rfl
      rcases came with own | ⟨p, -, c, c', -, same, -⟩
      · exact no_manifest bad own m rfl
      · cases same
    obtain ⟨kept, nothing⟩ := absorb_shapeless (opened.2 bad) refused true now
    rw [absorbed] at kept nothing
    refine ⟨⟨fun valid => absurd valid bad, fun _ => kept⟩, ?_⟩
    rintro j rfl
    cases nothing

/-! ## What a side puts on the wire -/

/-- Whatever it sends can be read, and only acks and nacks are answered. -/
structure Clear (o : ReliableOptions) (c : Config) : Prop where
  mode : c.transport.reliable = some o
  speaks : c.Speaks fun q => q.isData = true ∧ q.Wf
  hears : ∀ x, Hears x (fun _ => True) (fun _ => True) (c.at x)
  errors : ∀ q, .sent q ∈ c.transport.log → q.isData = true ∨ ∃ tid reason, q = .error tid reason

/-- What is sent is an object or an array. -/
def Event.Typed : Event → Prop
  | .send data _ => data.Wf ∧ data.isContainer = true
  | _ => True

theorem Clear.sound (h : Clear o c) : c.Sound := fun f hf =>
  f.sound_iff.mpr fun q hq => (h.speaks.left f hf q hq).1

theorem clear_start (o : ReliableOptions) (options : SplitOptions) (partialTtlMs now : Nat) :
    Clear o (.start (.create options partialTtlMs (some o) now)) where
  mode := rfl
  speaks := ⟨⟨by rintro tid p ⟨⟩, by rintro q ⟨⟩⟩, by rintro f ⟨⟩⟩
  hears x := ⟨by rintro s ⟨⟩, by rintro loop ⟨⟩, by rintro entry ⟨⟩, trivial, by rintro q ⟨⟩⟩
  errors := by rintro q ⟨⟩

theorem Clear.step (h : Clear o c) (hstep : c.step e = some c') (typed : e.Typed) : Clear o c' where
  mode := (step_reliable hstep).1.trans h.mode
  speaks := by
    apply h.speaks.step hstep
    rintro data ids split rfl cut q hq
    obtain ⟨pieces, doc, -, made, -⟩ := splitJSON_madeOf typed.1 typed.2 cut
    exact ⟨packets_isData split q hq, made.packets_wf q hq⟩
  hears x := by
    refine (h.hears x).move (fun text p _ _ _ _ => ?_) (step_move h.mode hstep)
    intro v now s reports out _ _
    exact ⟨trivial, fun _ _ => trivial⟩
  errors q hq := by
    have loud : Effect.outgoing q.tid (.sent q) = true := by simp [Effect.outgoing]
    rcases (stems_step h.mode h.sound hstep loud).2 hq with old | data | ⟨reason, same⟩
    · exact h.errors q old
    · exact .inl data
    · exact .inr ⟨q.tid, reason, same⟩

theorem Clear.control (h : Clear o c) {q : JSONTransportPacket} (hq : .answered q ∈ c.transport.log) :
    q.isData = false := by
  have about : Effect.about q.tid (.answered q) = true := by simp [Effect.about]
  exact (h.hears q.tid).control q (List.mem_filter.mpr ⟨hq, about⟩)

theorem garbled_of_garbles {p q : JSONTransportPacket} (h : garbles q p = true) : Garbled q p := by
  cases q with
  | chunk cq =>
    cases p with
    | chunk cp =>
      obtain ⟨same, wrong⟩ : cp = { cq with data := cp.data } ∧ cq.hash ≠ hashString cp.data := by
        simpa [garbles] using h
      have fields := same
      rw [JSONChunkPacket.mk.injEq] at fields
      obtain ⟨tid, cid, index, total, -, hash⟩ := fields
      exact ⟨cq, cp, rfl, rfl, tid, cid, index, total, hash, hash ▸ wrong⟩
    | _ => cases h
  | _ => cases h

/-- **What the channel can deliver** can be read. What is of a message was sent, at times
damaged; an ack was answered. -/
theorem Clear.offers {p : JSONTransportPacket} (h : Clear o c) (offers : c.offers p = true) :
    p.Wf ∧ (p.isData = true → ∃ q, .sent q ∈ c.transport.log ∧ q.isData = true ∧
      (p = q ∨ Garbled q p)) ∧ ∀ y, p = .ack y → .answered p ∈ c.transport.log := by
  obtain ⟨q, hq, how⟩ := List.any_eq_true.mp offers
  obtain ⟨f, hf, out⟩ := List.mem_filterMap.mp hq
  have how : p = q ∨ Garbled q p := by
    rcases Bool.or_eq_true_iff.mp how with same | damaged
    · exact .inl (of_decide_eq_true same)
    · exact .inr (garbled_of_garbles damaged)
  have whole : f = .sent q ∨ f = .answered q := by
    cases f <;> simp_all [Effect.packet?]
  rcases whole with rfl | rfl
  · rcases h.errors q hf with data | ⟨tid, reason, rfl⟩
    · refine ⟨?_, fun _ => ⟨q, hf, data, how⟩, ?_⟩
      · rcases how with rfl | ⟨a, b, -, rfl, -⟩
        · exact (h.speaks.speaks.sent p hf data).2
        · trivial
      · rintro y rfl
        rcases how with rfl | ⟨a, b, -, same, -⟩
        · cases data
        · cases same
    · rcases how with rfl | ⟨a, b, same, -⟩
      · refine ⟨trivial, ?_, ?_⟩
        · rintro ⟨⟩
        · rintro y ⟨⟩
      · cases same
  · have control := h.control hf
    rcases how with rfl | ⟨a, b, rfl, -⟩
    · refine ⟨?_, fun data => ?_, fun _ _ => hf⟩
      · cases p <;> trivial
      · rw [control] at data
        cases data
    · cases control

/-! ## One message -/

/-- What a receiver can put together of the value is the value: nothing that prints is lost
in the copy, unless the manifest is refused. -/
def Faithful (c : Config) : Event → Prop
  | .send data ids => (∀ spot ∈ data.spots c.transport.options [], PROTO ∉ spot.1) →
    ((List.range (data.spots c.transport.options []).length).map ids.cid).Nodup → data.kept = true
  | _ => True

instance (c : Config) (e : Event) : Decidable (Faithful c e) := by
  rcases e with ⟨⟩ <;> dsimp only [Faithful] <;> infer_instance

theorem faithful_split {data : JSValue} {ids : Ids} (wf : data.Wf)
    (container : data.isContainer = true) (faithful : Faithful c (.send data ids))
    (cut : splitJSON data c.transport.options ids = some split) :
    ∃ pieces doc raw, data.raw = some raw ∧ MadeOf ids.cid split pieces doc ∧
      (validateManifest split.manifest = none → doc = raw) := by
  obtain ⟨pieces, doc, copied, made, spots, -⟩ := splitJSON_madeOf wf container cut
  have prints : ∃ raw, data.image = some raw := by
    rw [← Option.ne_none_iff_exists']
    intro omitted
    rw [(image_copy_none data).mpr omitted] at copied
    cases copied
  obtain ⟨raw, hraw⟩ := prints
  refine ⟨pieces, doc, raw, (JSValue.raw_eq wf).trans hraw, made, fun valid => ?_⟩
  obtain ⟨clear, distinct⟩ := (sound_iff made spots).mp ((validateManifest_none made).mp valid)
  have same := (kept_iff data).mp (faithful clear distinct)
  rw [copied, hraw] at same
  exact Option.some.inj same

/-- Where the two sides stand with the message of a tid. -/
inductive Dealing (x : JSString) (l : Link) : Prop where
  | before (unused : ∀ data, .started x data ∉ l.sender.transport.log)
    (speaks : l.sender.Speaks fun q => q.tid ≠ x)
    (hears : Hears x (fun _ => False) (fun _ => False) (l.receiver.at x))
  | after {data : JSValue} {raw doc : Json} {split : JSONSplitResult} {cid : Nat → JSString}
    {pieces : List Piece} (value : data.raw = some raw) (made : MadeOf cid split pieces doc)
    (own : split.tid = x) (faithful : validateManifest split.manifest = none → doc = raw)
    (started : .started x data ∈ l.sender.transport.log)
    (once : ∀ data', .started x data' ∈ l.sender.transport.log → data' = data)
    (speaks : l.sender.Speaks fun q => q.tid = x → q ∈ split.packets)
    (hears : Hears x (fun data => data = raw) (Builds split) (l.receiver.at x))

theorem Config.Speaks.imp {Good Good' : JSONTransportPacket → Prop} (h : c.Speaks Good)
    (good : ∀ q, Good q → Good' q) : c.Speaks Good' :=
  ⟨⟨fun tid p hp q hq => good q (h.speaks.pending tid p hp q hq),
    fun q hq data => good q (h.speaks.sent q hq data)⟩,
    fun f hf q hq => good q (h.left f hf q hq)⟩

theorem starts_zero {log : List Effect} :
    starts x log = 0 ↔ ∀ data, .started x data ∉ log := by
  rw [starts, List.countP_eq_zero]
  constructor
  · intro none data mem
    simpa using none _ mem
  · intro none f mem
    cases f with
    | started y data =>
      intro same
      obtain rfl : y = x := by simpa using same
      exact none data mem
    | _ => simp

variable {lk : Link}

theorem Dealing.sender (h : Dealing x lk) (clear : Clear o lk.sender)
    (hstep : lk.sender.step e = some c') (typed : e.Typed) (fresh : Fresh lk.sender e)
    (faithful : Faithful lk.sender e) : Dealing x { lk with sender := c' } := by
  have loud : ∀ data, Effect.outgoing x (.started x data) = true := by simp [Effect.outgoing]
  have log := fun data => stems_step (f := .started x data) clear.mode clear.sound hstep (loud data)
  -- the packets of a send under another tid
  have apart : ∀ data ids split, e = .send data ids →
      splitJSON data lk.sender.transport.options ids = some split → split.tid ≠ x →
      ∀ q ∈ split.packets, q.tid ≠ x := by
    rintro data ids split rfl cut other q hq
    obtain ⟨pieces, doc, -, made, -⟩ := splitJSON_madeOf typed.1 typed.2 cut
    rw [made.packets_tid q hq]
    exact other
  cases h with
  | before unused speaks hears =>
    by_cases begins : ∃ data ids split, e = .send data ids ∧
        splitJSON data lk.sender.transport.options ids = some split ∧ split.tid = x
    · obtain ⟨data, ids, split, rfl, cut, own⟩ := begins
      obtain ⟨pieces, doc, raw, value, made, means⟩ := faithful_split typed.1 typed.2 faithful cut
      have started := started_send clear.mode cut hstep
      rw [own] at started
      refine .after value made own means started (fun data' mem => ?_) ?_
        (hears.imp (by simp) (by simp))
      · rcases (log data').2 mem with old | ⟨ids', split', same, -⟩
        · exact absurd old (unused data')
        · cases same
          rfl
      · refine (speaks.imp fun q other same => absurd same other).step hstep ?_
        rintro data' ids' split' same cut' q hq -
        cases same
        obtain rfl := Option.some.inj (cut.symm.trans cut')
        exact hq
    · refine .before (fun data mem => ?_) ?_ hears
      · rcases (log data).2 mem with old | ⟨ids, split, same, cut, own⟩
        · exact unused data old
        · exact begins ⟨data, ids, split, same, cut, own⟩
      · apply speaks.step hstep
        intro data ids split same cut
        exact apart data ids split same cut fun own => begins ⟨data, ids, split, same, cut, own⟩
  | @after data raw doc split cid pieces value made own means started once speaks hears =>
    have others : ∀ data' ids split', e = .send data' ids →
        splitJSON data' lk.sender.transport.options ids = some split' → split'.tid ≠ x := by
      rintro data' ids split' rfl cut same
      have unused := starts_zero.mp fresh
      rw [← Transport.splitJSON_tid cut, same] at unused
      exact unused data started
    refine .after value made own means ((log data).1 started) (fun data' mem => ?_) ?_ hears
    · rcases (log data').2 mem with old | ⟨ids, split', same, cut, own'⟩
      · exact once data' old
      · exact absurd own' (others data' ids split' same cut)
    · apply speaks.step hstep
      intro data' ids split' same cut q hq own'
      exact absurd own' (apart data' ids split' same cut (others data' ids split' same cut) q hq)

theorem Dealing.receiver (h : Dealing x lk) (clear : Clear o lk.sender)
    (mode : lk.receiver.transport.reliable = some o') (hstep : lk.receiver.step e = some c')
    (read : ∀ text, e = .receive text → ∃ p, text = p.wire ∧ lk.sender.offers p = true) :
    Dealing x { lk with receiver := c' } := by
  have move := step_move (x := x) mode hstep
  have brought : ∀ text p, e = .receive text → readPacket text = some p → p.isData = true →
      ∃ q, .sent q ∈ lk.sender.transport.log ∧ q.isData = true ∧ (p = q ∨ Garbled q p) := by
    intro text p same hp data
    obtain ⟨p', rfl, offers⟩ := read text same
    obtain ⟨wf, sent, -⟩ := clear.offers offers
    rw [readPacket_wire wf] at hp
    obtain rfl := Option.some.inj hp
    exact sent data
  have tid : ∀ p q : JSONTransportPacket, p = q ∨ Garbled q p → p.tid = q.tid := by
    rintro p q (rfl | ⟨a, b, rfl, rfl, same, -⟩)
    · rfl
    · exact same
  cases h with
  | before unused speaks hears =>
    refine .before unused speaks (hears.move (fun text p same hp data own => ?_) move)
    obtain ⟨q, sent, isData, how⟩ := brought text p same hp data
    exact absurd ((tid p q how).symm.trans own) (speaks.speaks.sent q sent isData)
  | @after data raw doc split cid pieces value made own means started once speaks hears =>
    refine .after value made own means started once speaks
      (hears.move (fun text p same hp data own' => ?_) move)
    obtain ⟨q, sent, isData, how⟩ := brought text p same hp data
    have mine := speaks.speaks.sent q sent isData ((tid p q how).symm.trans own')
    subst own
    apply honest_packet made means
    rcases how with rfl | damaged
    · exact .inl mine
    · exact .inr ⟨q, mine, damaged⟩

/-! ## Whole runs -/

def LinkEvent.Typed : LinkEvent → Prop
  | .sender e => e.Typed
  | .receiver e => e.Typed
  | _ => True

theorem LinkEvent.Typed.side {e : LinkEvent} {d : Event} (h : e.Typed)
    (side : e.forSender = some d ∨ e.forReceiver = some d) : d.Typed := by
  cases e with
  | sender d' =>
    rcases side with same | same
    · obtain rfl := Option.some.inj same
      exact h
    · cases same
  | receiver d' =>
    rcases side with same | same
    · cases same
    · obtain rfl := Option.some.inj same
      exact h
  | toSender p =>
    rcases side with same | same
    · obtain rfl := Option.some.inj same
      trivial
    · cases same
  | toReceiver p =>
    rcases side with same | same
    · cases same
    · obtain rfl := Option.some.inj same
      trivial

/-- Both sides, what stands between them, and the acks that resolved a send. -/
structure Joined (o o' : ReliableOptions) (l : Link) : Prop where
  sender : Clear o l.sender
  receiver : Clear o' l.receiver
  dealing : ∀ x, Dealing x l
  acked : ∀ x, .resolved x ∈ l.sender.transport.log → .answered (.ack x) ∈ l.receiver.transport.log

theorem joined_start (o o' : ReliableOptions) (options options' : SplitOptions)
    (partialTtlMs partialTtlMs' now now' : Nat) :
    Joined o o' ⟨.start (.create options partialTtlMs (some o) now),
      .start (.create options' partialTtlMs' (some o') now')⟩ where
  sender := clear_start o options partialTtlMs now
  receiver := clear_start o' options' partialTtlMs' now'
  dealing x := .before (by rintro data ⟨⟩)
    ⟨⟨by rintro tid p ⟨⟩, by rintro q ⟨⟩⟩, by rintro f ⟨⟩⟩
    ⟨by rintro s ⟨⟩, by rintro loop ⟨⟩, by rintro entry ⟨⟩, trivial, by rintro q ⟨⟩⟩
  acked := by rintro x ⟨⟩

theorem Joined.step {l l' : Link} {e : LinkEvent} (h : Joined o o' l)
    (typed : e.Typed) (fresh : l.Sender Fresh e) (faithful : l.Sender Faithful e)
    (hstep : l.step e = some l') : Joined o o' l' := by
  rcases Link.step_side hstep with ⟨d, c, seen, moved, rfl, read⟩ | ⟨d, c, seen, moved, rfl, read⟩
  · have own := typed.side (.inl seen)
    refine ⟨h.sender.step moved own, h.receiver, fun x => ?_, fun x resolved => ?_⟩
    · exact (h.dealing x).sender h.sender moved own (fresh d seen) (faithful d seen)
    · have loud : Effect.outgoing x (.resolved x) = true := by simp [Effect.outgoing]
      rcases (stems_step h.sender.mode h.sender.sound moved loud).2 resolved with
        old | ⟨text, same, acked⟩
      · exact h.acked x old
      · obtain ⟨p, rfl, offers⟩ := read text same
        obtain ⟨wf, -, answered⟩ := h.receiver.offers offers
        rw [readPacket_wire wf] at acked
        obtain rfl := Option.some.inj acked
        exact answered x rfl
  · have own := typed.side (.inr seen)
    refine ⟨h.sender, h.receiver.step moved own, fun x => ?_, fun x resolved => ?_⟩
    · exact (h.dealing x).receiver h.sender h.receiver.mode moved read
    · exact answered_step h.receiver.mode moved (h.acked x resolved)

theorem Joined.run {l l' : Link} {es : List LinkEvent} (h : Joined o o' l)
    (typed : ∀ e ∈ es, e.Typed)
    (run : Run Link.step (fun l e => l.Sender Fresh e ∧ l.Sender Faithful e) l es l') :
    Joined o o' l' := by
  induction run with
  | nil => exact h
  | cons good hstep _ ih =>
    have next := h.step (typed _ List.mem_cons_self) good.1 good.2 hstep
    exact ih next fun e he => typed e (List.mem_cons_of_mem _ he)

/-- An ack follows the emission of what was sent. -/
theorem Joined.ack {l : Link} (h : Joined o o' l)
    (acked : l.receiver.transport.log = newer ++ .answered (.ack x) :: older) :
    ∃ data raw, .started x data ∈ l.sender.transport.log ∧
      (∀ data', .started x data' ∈ l.sender.transport.log → data' = data) ∧
      data.raw = some raw ∧ Emitted x raw older := by
  have about : Effect.about x (.answered (.ack x)) = true := by
    simp [Effect.about, JSONTransportPacket.tid]
  have view : (l.receiver.at x).view.log = newer.filter (Effect.about x) ++
      .answered (.ack x) :: older.filter (Effect.about x) := by
    change l.receiver.transport.log.filter (Effect.about x) = _
    rw [acked, List.filter_append, List.filter_cons_of_pos about]
  cases h.dealing x with
  | before unused speaks hears =>
    have told := hears.acks
    rw [view] at told
    obtain ⟨data, never, -⟩ := told.before
    exact never.elim
  | @after data raw doc split cid pieces value made own means started once speaks hears =>
    have told := hears.acks
    rw [view] at told
    obtain ⟨_, rfl, emitted⟩ := told.before
    exact ⟨data, _, started, once, value, emitted.of_about⟩

/-- **What a resolved send means.** Two reliable transports send each other values over a
channel that loses, duplicates, reorders, delays and damages packets; the sender uses no
tid twice, and what can be put together of its values is these values. When a send is
resolved, its value was put together by the receiver, and every listener there then was has
been called with it and has returned. No ack goes out before that. -/
theorem resolved_means_emitted {options options' : SplitOptions}
    {partialTtlMs partialTtlMs' now now' : Nat} {es : List LinkEvent} {l : Link}
    (typed : ∀ e ∈ es, e.Typed)
    (run : Run Link.step (fun l e => l.Sender Fresh e ∧ l.Sender Faithful e)
      ⟨.start (.create options partialTtlMs (some o) now),
        .start (.create options' partialTtlMs' (some o') now')⟩ es l) :
    (∀ tid data, .started tid data ∈ l.sender.transport.log →
      .resolved tid ∈ l.sender.transport.log →
      ∃ raw, data.raw = some raw ∧ Emitted tid raw l.receiver.transport.log) ∧
    ∀ tid newer older, l.receiver.transport.log = newer ++ .answered (.ack tid) :: older →
      ∃ data raw, .started tid data ∈ l.sender.transport.log ∧ data.raw = some raw ∧
        Emitted tid raw older := by
  have joined := (joined_start o o' options options' partialTtlMs partialTtlMs' now now').run typed run
  refine ⟨fun tid data started resolved => ?_, fun tid newer older acked => ?_⟩
  · obtain ⟨newer, older, acked⟩ := List.append_of_mem (joined.acked tid resolved)
    obtain ⟨data', raw, -, once, value, emitted⟩ := joined.ack acked
    obtain rfl := once data started
    refine ⟨raw, value, ?_⟩
    rw [acked, List.append_cons]
    exact emitted.grow (newer ++ [.answered (.ack tid)])
  · obtain ⟨data, raw, started, -, value, emitted⟩ := joined.ack acked
    exact ⟨data, raw, started, value, emitted⟩

/-! A message that arrives, and one with a key that the copy drops. -/

/-- A value that prints `j` was sent as `tid`. -/
def wasSent (tid : JSString) (j : Json) (log : List Effect) : Bool :=
  log.any fun
    | .started x data => x = tid ∧ data.raw = some j
    | _ => false

/-- `j` was put together. -/
def wasMade (tid : JSString) (j : Json) (log : List Effect) : Bool :=
  log.any fun
    | .assembled x data _ => x = tid ∧ data = j
    | _ => false

theorem mem_of_wasSent {j : Json} (h : wasSent tid j log = true) :
    ∃ data, .started tid data ∈ log ∧ data.raw = some j := by
  obtain ⟨f, mem, same⟩ := List.any_eq_true.mp h
  cases f with
  | started x data =>
    obtain ⟨rfl, value⟩ : x = tid ∧ data.raw = some j := by simpa using same
    exact ⟨data, mem, value⟩
  | _ => cases same

theorem mem_of_wasAcked (h : wasAcked tid log = true) : .resolved tid ∈ log := by
  obtain ⟨f, mem, same⟩ := List.any_eq_true.mp h
  cases f with
  | resolved x =>
    obtain rfl : x = tid := by simpa using same
    exact mem
  | _ => cases same

theorem Emitted.wasMade (h : Emitted tid data log) : wasMade tid data log = true := by
  obtain ⟨listeners, newer, older, rfl, -⟩ := h
  simp [LemonModel.wasMade]

theorem resolved_means_emitted_greeting :
    ∃ l, exec Link.step (pair .default) ([.receiver (.onMessage 0)] ++ (.sender greet :: attempted) ++
        [.toSender (.ack (lit "t"))]) = some l ∧
      Emitted (lit "t") (.obj [(lit "a", .bool true)]) l.receiver.transport.log := by
  obtain ⟨l, run⟩ := Run.of_allGood Link.step
    (fun l e => l.Sender Fresh e ∧ l.Sender Faithful e) (pair .default)
    ([.receiver (.onMessage 0)] ++ (.sender greet :: attempted) ++ [.toSender (.ack (lit "t"))])
    (by decide +kernel)
  have typed : ∀ e ∈ [.receiver (.onMessage 0)] ++ (.sender greet :: attempted) ++
      [.toSender (.ack (lit "t"))], LinkEvent.Typed e := by
    simp [attempted, greet, LinkEvent.Typed, Event.Typed, JSValue.Wf, ValuePropsWf,
      JSValue.isContainer]
  have logged : (wasSent (lit "t") (.obj [(lit "a", .bool true)]) l.sender.transport.log,
      wasAcked (lit "t") l.sender.transport.log) = (true, true) :=
    run.read (f := fun l => (wasSent (lit "t") (.obj [(lit "a", .bool true)]) l.sender.transport.log,
      wasAcked (lit "t") l.sender.transport.log)) (by decide +kernel)
  rw [Prod.mk.injEq] at logged
  obtain ⟨data, started, value⟩ := mem_of_wasSent logged.1
  obtain ⟨raw, value', emitted⟩ := (resolved_means_emitted typed run).1 (lit "t") data started
    (mem_of_wasAcked logged.2)
  obtain rfl := Option.some.inj (value.symm.trans value')
  exact ⟨l, run.exec_eq, emitted⟩

/-- The send of a value with an own key `__proto__`, and all that it takes to resolve it. -/
def shadowedArrives : List LinkEvent :=
  [.sender (.reply true), .sender (.reply true)] ++ shadowedSplit.packets.map .toReceiver ++
    [.receiver (.reply true), .receiver (.reply true), .toSender (.ack noteIds.tid)]

/-- Its send is resolved, and the listener was called with another value. -/
theorem proto_resolves_unheard :
    ¬ ∀ (data : Json) (ids : Ids) (before after : List LinkEvent) (l : Link), data.Wf →
      (∀ e ∈ before ++ .sender (.send (.ofJson data) ids) :: after, LinkEvent.Typed e) →
      Run Link.step (fun l e => l.Sender Fresh e) (pair .default)
        (before ++ .sender (.send (.ofJson data) ids) :: after) l →
      .resolved ids.tid ∈ l.sender.transport.log →
      Emitted ids.tid data l.receiver.transport.log := by
  intro h
  obtain ⟨l, run⟩ := Run.of_allGood Link.step (fun l e => l.Sender Fresh e) (pair .default)
    ([.receiver (.onMessage 0)] ++ .sender (.send (.ofJson shadowed) noteIds) :: shadowedArrives)
    (by decide +kernel)
  have wf : shadowed.Wf := by simp [shadowed, Json.wf_obj]
  have typed : ∀ e ∈ [.receiver (.onMessage 0)] ++
      .sender (.send (.ofJson shadowed) noteIds) :: shadowedArrives, LinkEvent.Typed e := by
    have value : (Event.send (.ofJson shadowed) noteIds).Typed := ⟨JSValue.wf_ofJson wf, rfl⟩
    have arrives : ∀ e ∈ shadowedSplit.packets.map LinkEvent.toReceiver, e.Typed :=
      List.forall_mem_map.mpr fun _ _ => trivial
    simp only [shadowedArrives, List.forall_mem_append, List.forall_mem_cons]
    exact ⟨⟨trivial, by simp⟩, value, ⟨⟨trivial, trivial, by simp⟩, arrives⟩, trivial, trivial,
      trivial, by simp⟩
  have logged : (wasAcked noteIds.tid l.sender.transport.log,
      wasMade noteIds.tid shadowed l.receiver.transport.log) = (true, false) :=
    run.read (f := fun l => (wasAcked noteIds.tid l.sender.transport.log,
      wasMade noteIds.tid shadowed l.receiver.transport.log)) (by decide +kernel)
  rw [Prod.mk.injEq] at logged
  have made := (h shadowed noteIds _ _ l wf typed run (mem_of_wasAcked logged.1)).wasMade
  rw [logged.2] at made
  cases made

end LemonModel
