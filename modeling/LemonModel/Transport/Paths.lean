import LemonModel.Transport.Cutting
import LemonModel.Transport.Reorder

/-!
# The two delivery paths

A peer without a transport sends `JSON.stringify(message)`; one with a transport
sends the packets of `splitJSON(message)`. `paths_agree` says when both deliver
the same value.
-/

namespace LemonModel

open Text

/-- What the path without a transport delivers:
`JSON.parse(JSON.stringify(value))`. -/
def JSValue.raw (v : JSValue) : Option Json := v.stringify.bind parse

theorem JSValue.raw_eq {v : JSValue} (wf : v.Wf) : v.raw = v.image := by
  cases hs : v.stringify with
  | none =>
    have omitted : v.image = none := by simpa [JSValue.stringify] using hs
    rw [JSValue.raw, hs, omitted]
    rfl
  | some s =>
    rw [JSValue.raw, hs]
    exact parse_stringify wf hs

/-! ## What a copy keeps -/

mutual

/-- Nothing that `JSON.stringify` prints is lost when an object is copied own key
by own key: what `toJSON` makes of an object is what its copy prints, and no own
key `__proto__` has a value that prints. -/
def JSValue.kept : JSValue → Bool
  | .arr items => keptItems items
  | .obj props none => keptProps props
  | .obj props (some j) => j = .obj (imageProps (copyProps props))
  | _ => true

def keptItems : List JSValue → Bool
  | [] => true
  | x :: xs => x.kept && keptItems xs

def keptProps : List (JSString × JSValue) → Bool
  | [] => true
  | (k, x) :: xs => (if k = PROTO then x.image.isNone else x.kept) && keptProps xs

end

/-- A copy prints where the value does. -/
theorem image_copy_none (v : JSValue) : v.copy.image = none ↔ v.image = none := by
  cases v with
  | num n => cases n <;> simp [JSValue.copy, JSValue.image]
  | obj props image => cases image <;> simp [JSValue.copy, JSValue.image]
  | _ => simp [JSValue.copy, JSValue.image]

theorem imageItems_kept {items : List JSValue}
    (ih : ∀ x ∈ items, (x.kept = true ↔ x.copy.image = x.image)) :
    imageItems (copyItems items) = imageItems items ↔ keptItems items = true := by
  induction items with
  | nil => simp [copyItems, imageItems, keptItems]
  | cons x xs ihs =>
    have rest := ihs fun y hy => ih y (List.mem_cons_of_mem _ hy)
    have first : x.copy.image.getD .null = x.image.getD .null ↔ x.copy.image = x.image := by
      have silent := image_copy_none x
      cases hc : x.copy.image <;> cases hv : x.image <;> simp_all
    rw [copyItems, imageItems, imageItems, List.cons.injEq, first, rest, keptItems,
      Bool.and_eq_true, ih x List.mem_cons_self]

theorem proto_not_mem_copy (props : List (JSString × JSValue)) :
    PROTO ∉ (imageProps (copyProps props)).map Prod.fst := by
  intro h
  have copied := (imageProps_keys _).subset h
  clear h
  induction props with
  | nil => cases copied
  | cons p ps ih =>
    obtain ⟨k, x⟩ := p
    rw [copyProps] at copied
    split at copied
    · exact ih copied
    · rename_i hk
      rcases List.mem_cons.mp copied with h | h
      · exact hk h.symm
      · exact ih h

theorem imageProps_kept {props : List (JSString × JSValue)}
    (ih : ∀ p ∈ props, (p.2.kept = true ↔ p.2.copy.image = p.2.image)) :
    imageProps (copyProps props) = imageProps props ↔ keptProps props = true := by
  induction props with
  | nil => simp [copyProps, imageProps, keptProps]
  | cons p ps ihs =>
    obtain ⟨k, x⟩ := p
    have rest := ihs fun q hq => ih q (List.mem_cons_of_mem _ hq)
    have own := ih (k, x) List.mem_cons_self
    have silent := image_copy_none x
    rw [keptProps, Bool.and_eq_true, ← rest, copyProps]
    by_cases hk : k = PROTO
    · subst hk
      rw [if_pos rfl, if_pos rfl]
      cases hv : x.image with
      | none => simp [imageProps, hv]
      | some j =>
        have absent : imageProps (copyProps ps) ≠ (PROTO, j) :: imageProps ps := by
          intro h
          have := proto_not_mem_copy ps
          rw [h] at this
          exact this (by simp)
        simp [imageProps, hv, absent]
    · rw [if_neg hk, if_neg hk, own]
      cases hc : x.copy.image with
      | none =>
        have hv := silent.mp hc
        simp [imageProps, hc, hv]
      | some j' =>
        cases hv : x.image with
        | none =>
          rw [silent.mpr hv] at hc
          cases hc
        | some j => simp [imageProps, hc, hv]

/-- A copy prints as the value does, exactly if the value is kept. -/
theorem kept_iff (v : JSValue) : v.kept = true ↔ v.copy.image = v.image := by
  induction v with
  | arr items ih =>
    rw [JSValue.kept, ← imageItems_kept ih]
    simp [JSValue.copy, JSValue.image]
  | obj props image ih =>
    cases image with
    | none =>
      rw [JSValue.kept, ← imageProps_kept ih]
      simp [JSValue.copy, JSValue.image]
    | some j => simp [JSValue.kept, JSValue.copy, JSValue.image, eq_comm]
  | _ => simp [JSValue.kept, JSValue.copy]

/-! ## Where `splitJSON` throws -/

/-- Every character of a string that is cut fits a chunk. -/
def JSValue.Fits (v : JSValue) (options : SplitOptions) (path : JSString) : Prop :=
  ∀ spot ∈ v.spots options path, ∀ char ∈ chars spot.2, (byteLength char : Int) ≤ options.chunkBytes

variable {options : SplitOptions} {cid : Nat → JSString}

theorem cloneItems_fits {items : List JSValue}
    (ih : ∀ x ∈ items, ∀ path out, x.Fits options path →
      (cloneAndSplit options cid path out x).isSome)
    {path : JSString} {index : Nat} {out : SplitOutput}
    (fits : ∀ spot ∈ spotsItems options path index items, ∀ char ∈ chars spot.2,
      (byteLength char : Int) ≤ options.chunkBytes) :
    (cloneItems options cid path index out items).isSome := by
  induction items generalizing index out with
  | nil => rfl
  | cons x xs ihs =>
    have own : x.Fits options (path ++ unit '/' :: natText index) := by
      intro spot hs
      apply fits (Spot.below (natText index) spot)
      exact List.mem_append_left _ (List.mem_map_of_mem hs)
    obtain ⟨⟨w, mid⟩, hx⟩ := Option.isSome_iff_exists.mp (ih x List.mem_cons_self _ out own)
    have rest : (cloneItems options cid path (index + 1) mid xs).isSome :=
      ihs (fun y hy => ih y (List.mem_cons_of_mem _ hy))
        fun spot hs => fits spot (List.mem_append_right _ hs)
    obtain ⟨⟨ws, out'⟩, hxs⟩ := Option.isSome_iff_exists.mp rest
    simp [cloneItems, hx, hxs]

theorem cloneProps_fits {props : List (JSString × JSValue)}
    (ih : ∀ p ∈ props, ∀ path out, p.2.Fits options path →
      (cloneAndSplit options cid path out p.2).isSome)
    {path : JSString} {out : SplitOutput}
    (fits : ∀ spot ∈ spotsProps options path props, ∀ char ∈ chars spot.2,
      (byteLength char : Int) ≤ options.chunkBytes) :
    (cloneProps options cid path out props).isSome := by
  induction props generalizing out with
  | nil => rfl
  | cons p ps ihs =>
    obtain ⟨k, x⟩ := p
    have own : x.Fits options (path ++ unit '/' :: escapeJSONPointer k) := by
      intro spot hs
      apply fits (Spot.below k spot)
      exact List.mem_append_left _ (List.mem_map_of_mem hs)
    obtain ⟨⟨w, mid⟩, hx⟩ := Option.isSome_iff_exists.mp (ih (k, x) List.mem_cons_self _ out own)
    have rest : (cloneProps options cid path mid ps).isSome :=
      ihs (fun q hq => ih q (List.mem_cons_of_mem _ hq))
        fun spot hs => fits spot (List.mem_append_right _ hs)
    obtain ⟨⟨ws, out'⟩, hps⟩ := Option.isSome_iff_exists.mp rest
    simp [cloneProps, show cloneAndSplit options cid _ out x = _ from hx, hps]

theorem cloneAndSplit_fits {v : JSValue} (pos : 0 < options.chunkBytes) {path : JSString}
    {out : SplitOutput} (fits : v.Fits options path) :
    (cloneAndSplit options cid path out v).isSome := by
  induction v generalizing path out with
  | str s =>
    rw [cloneAndSplit]
    split
    · rename_i cut
      have whole : (splitStringByBytes s options.chunkBytes).isSome := by
        apply splitStringByBytes_fits pos
        apply fits ([], s)
        rw [JSValue.spots, if_pos cut]
        exact List.mem_singleton.mpr rfl
      split
      · rename_i throws
        rw [throws] at whole
        cases whole
      · rfl
    · rfl
  | arr items ih =>
    have cloned : (cloneItems options cid path 0 out items).isSome :=
      cloneItems_fits (fun x hx path out => ih x hx) fits
    obtain ⟨⟨ws, out'⟩, h⟩ := Option.isSome_iff_exists.mp cloned
    simp [cloneAndSplit, h]
  | obj props image ih =>
    have cloned : (cloneProps options cid path out props).isSome :=
      cloneProps_fits (fun p hp path out => ih p hp) fits
    obtain ⟨⟨ws, out'⟩, h⟩ := Option.isSome_iff_exists.mp cloned
    simp [cloneAndSplit, h]
  | _ => simp [cloneAndSplit]

/-- **Where every character fits, `splitJSON` does not throw.** -/
theorem splitJSON_fits {data : JSValue} (pos : 0 < options.chunkBytes) (fits : data.Fits options [])
    (ids : Ids) : ∃ split, splitJSON data options ids = some split := by
  have cloned : (cloneAndSplit options ids.cid [] ⟨[], []⟩ data).isSome := cloneAndSplit_fits pos fits
  obtain ⟨⟨root, out⟩, h⟩ := Option.isSome_iff_exists.mp cloned
  rw [splitJSON, h]
  exact ⟨_, rfl⟩

/-! ## What a listener hears -/

def Effect.heard? (listener : Nat) : Effect → Option Json
  | .called _ data l => if l = listener then some data else none
  | _ => none

/-- The values a listener was called with, the newest first. -/
def Transport.heard (t : Transport) (listener : Nat) : List Json :=
  t.log.filterMap (Effect.heard? listener)

theorem heard_once {listeners : List Nat} {listener : Nat} (nodup : listeners.Nodup)
    (mem : listener ∈ listeners) (tid : JSString) (data : Json) :
    (listeners.flatMap fun l => [Effect.called tid data l, .returned tid data l]).reverse.filterMap
      (Effect.heard? listener) = [data] := by
  have none_else : ∀ ls : List Nat, listener ∉ ls →
      (ls.flatMap fun l => [Effect.called tid data l, .returned tid data l]).filterMap
        (Effect.heard? listener) = [] := by
    intro ls absent
    rw [List.filterMap_eq_nil_iff]
    intro e he
    obtain ⟨l, hl, he⟩ := List.mem_flatMap.mp he
    have other : l ≠ listener := fun h => absent (h ▸ hl)
    rcases List.mem_pair.mp he with rfl | rfl
    · exact if_neg other
    · rfl
  obtain ⟨before, after, rfl⟩ := List.append_of_mem mem
  have apart := List.nodup_middle.mp nodup
  rw [List.nodup_cons, List.mem_append, not_or] at apart
  rw [List.filterMap_reverse, List.flatMap_append, List.flatMap_cons, List.filterMap_append,
    List.filterMap_append, none_else _ apart.1.1, none_else _ apart.1.2]
  simp [Effect.heard?]

theorem onMessage_nodup (listeners : List Nat) {t : Transport} (h : t.listeners.Nodup) :
    (listeners.foldl Transport.onMessage t).listeners.Nodup := by
  induction listeners generalizing t with
  | nil => exact h
  | cons l ls ih =>
    apply ih
    unfold Transport.onMessage
    split
    · exact h
    · rename_i new
      rw [List.nodup_append]
      exact ⟨h, by simp, by
        rintro a ha b hb rfl
        exact new (List.mem_singleton.mp hb ▸ ha)⟩

theorem onMessage_mem (listeners : List Nat) {t : Transport} {listener : Nat}
    (h : listener ∈ listeners ∨ listener ∈ t.listeners) :
    listener ∈ (listeners.foldl Transport.onMessage t).listeners := by
  induction listeners generalizing t with
  | nil => exact h.resolve_left (by simp)
  | cons l ls ih =>
    apply ih
    unfold Transport.onMessage
    split
    · rename_i known
      rcases h with h | h
      · rcases List.mem_cons.mp h with rfl | h
        · exact .inr known
        · exact .inl h
      · exact .inr h
    · rcases h with h | h
      · rcases List.mem_cons.mp h with rfl | h
        · exact .inr (by simp)
        · exact .inl h
      · exact .inr (List.mem_append_left _ h)

/-! ## A message that cannot be put together -/

variable {split : JSONSplitResult} {doc : Json} {s : JSONReceiveState} {t t' : Transport}
  {l : List JSONTransportPacket} {q : JSONTransportPacket} {listeners : List Nat}

theorem finishState_shapeless (h : s.manifest = none) (reports : List Report) :
    finishState s reports = (s, reports, none) := by
  simp [finishState, validateCompletedChunkSizes, assembleJSON, h]

/-- Without a manifest nothing is rebuilt, and a manifest that does not pass its
check is not kept. -/
theorem absorb_shapeless (h : s.manifest = none)
    (bad : ∀ m, q = .manifest m → validateManifest m ≠ none) (reliable : Bool) (now : Nat) :
    (absorb reliable now s q).1.manifest = none ∧ (absorb reliable now s q).2.2 = none := by
  cases q with
  | manifest m =>
    obtain ⟨r, hr⟩ := Option.ne_none_iff_exists'.mp (bad m rfl)
    simp [absorb, acceptManifest, h, hr]
  | chunk c =>
    have kept : (acceptChunk reliable now s c).1.manifest = none := by
      have opened : (s.openCid c.cid).manifest = none := (openCid_frame s c.cid).2.1.trans h
      simp only [acceptChunk, h, Option.bind_none]
      split
      · exact h
      · split
        · split <;> exact opened
        · exact opened
    simp only [absorb]
    rw [finishState_shapeless kept]
    exact ⟨kept, rfl⟩
  | complete tid =>
    have ended : { s with complete := true }.manifest = none := h
    simp only [absorb]
    rw [finishState_shapeless ended]
    exact ⟨ended, rfl⟩
  | _ =>
    simp only [absorb]
    rw [finishState_shapeless h]
    exact ⟨h, rfl⟩

/-- No packet of a message whose manifest is bad brings a good one. -/
theorem no_manifest (bad : validateManifest split.manifest ≠ none) (hq : q ∈ split.packets) :
    ∀ m, q = .manifest m → validateManifest m ≠ none := by
  rintro m rfl
  have own : m = split.manifest := by simpa using mem_splitPackets.mp hq
  rw [own]
  exact bad

/-- The receiver has no manifest of the message and has called nobody. -/
structure Shapeless (split : JSONSplitResult) (t : Transport) : Prop where
  mode : t.reliable = none
  idle : t.nackTimers = []
  bare : ∀ s, t.states.get? split.tid = some s → s.manifest = none
  silent : ∀ listener, t.heard listener = []

theorem heard_emitErrors (t : Transport) (tid : JSString) (reports : List Report) (listener : Nat) :
    (t.emitErrors tid reports).heard listener = t.heard listener ∧
      (t.emitErrors tid reports).states = t.states ∧
      (t.emitErrors tid reports).nackTimers = t.nackTimers := by
  induction reports generalizing t with
  | nil => exact ⟨rfl, rfl, rfl⟩
  | cons r reports ih =>
    obtain ⟨heard, kept⟩ := ih (t.emitError (some tid) r)
    exact ⟨heard, kept⟩

theorem shapeless_packet (h : Shapeless split t) (bad : validateManifest split.manifest ≠ none)
    (live : t.expiredPartials = []) (hq : q ∈ split.packets) (own : q.tid = split.tid) (wf : q.Wf) :
    Shapeless split (t.deliver q.wire) := by
  have bare : (t.openState split.tid).manifest = none := by
    unfold Transport.openState
    cases hs : t.states.get? split.tid with
    | none => rfl
    | some s => exact h.bare s hs
  have fixed := Transport.deliver_fixed t q.wire
  have deliver := Transport.deliver_plain h.mode live wf (packets_data _ q hq)
  obtain ⟨still, nothing⟩ := absorb_shapeless bare (no_manifest bad hq) false t.now
  rw [own] at deliver
  generalize absorb false t.now (t.openState split.tid) q = r at deliver still nothing
  obtain ⟨s, reports, data⟩ := r
  obtain rfl : data = none := nothing
  rw [Transport.complete_acceptRest] at deliver
  simp only at deliver
  have frame := heard_emitErrors
    ((t.setState split.tid (t.openState split.tid)).setState split.tid s) split.tid reports
  rw [← deliver] at frame
  refine ⟨fixed.reliable.trans h.mode, (frame 0).2.2.trans h.idle, fun s' hs => ?_, fun listener => ?_⟩
  · rw [(frame 0).2.1] at hs
    simp only [Transport.setState, Dict.get?_set, if_true, Option.some.injEq] at hs
    rw [← hs]
    exact still
  · exact (frame listener).1.trans (h.silent listener)

/-! ## A message that is put together -/

/-- The packets `l` of the message have come; it is there with the last one. -/
structure Arriving (split : JSONSplitResult) (doc : Json) (listeners : List Nat)
    (l : List JSONTransportPacket) (t : Transport) : Prop where
  mode : t.reliable = none
  idle : t.nackTimers = []
  listening : t.listeners = listeners
  done : (∀ q ∈ split.packets, q ∈ l) → ∀ listener ∈ listeners, t.heard listener = [doc]
  waiting : (¬ ∀ q ∈ split.packets, q ∈ l) → (∀ listener, t.heard listener = []) ∧
    Genuine split ((t.states.get? split.tid).getD (.fresh split.tid 0)) ∧
    ∀ q ∈ split.packets,
      ((t.states.get? split.tid).getD (.fresh split.tid 0)).got q = true ↔ q ∈ l

theorem arriving_packet (carries : Carries split doc) (nodup : listeners.Nodup)
    (h : Arriving split doc listeners l t) (live : t.expiredPartials = []) (hq : q ∈ split.packets)
    (fresh : q ∉ l) : Arriving split doc listeners (l ++ [q]) (t.deliver q.wire) := by
  obtain ⟨silent, genuine, got⟩ := h.waiting fun all => fresh (all q hq)
  have opened : t.openState split.tid =
      { (t.states.get? split.tid).getD (.fresh split.tid 0) with updatedAt := t.now } :=
    Transport.openState_eq t split.tid
  replace genuine := genuine.touch t.now
  simp only [← got_touch _ t.now] at got
  rw [← opened] at genuine got
  have new : (t.openState split.tid).got q = false := by
    rw [← Bool.not_eq_true, got q hq]
    exact fresh
  obtain ⟨s', absorbed, takes⟩ := carries.absorb genuine hq (.inr new) t.now
  have full : s'.full split = true ↔ ∀ p ∈ split.packets, p ∈ l ++ [q] := by
    rw [JSONReceiveState.full, List.all_eq_true]
    refine forall₂_congr fun p hp => ?_
    rw [takes.got p hp, got p hp, List.mem_append, List.mem_singleton]
  have fixed := Transport.deliver_fixed t q.wire
  have deliver := Transport.deliver_plain h.mode live (carries.packets_wf q hq) (packets_data _ q hq)
  rw [carries.packets_tid q hq, absorbed] at deliver
  by_cases done : ∀ p ∈ split.packets, p ∈ l ++ [q]
  · rw [if_pos (full.mpr done)] at deliver
    obtain ⟨_, logged, timers⟩ :=
      Transport.acceptRest_done h.mode split.tid (t.openState split.tid) s' doc
    rw [← deliver] at logged timers
    refine ⟨fixed.reliable.trans h.mode, timers.trans h.idle, fixed.listeners.trans h.listening,
      fun _ listener mem => ?_, fun part => absurd done part⟩
    have before : t.log.filterMap (Effect.heard? listener) = [] := silent listener
    rw [Transport.heard, logged, List.filterMap_append, List.filterMap_append, before, h.listening,
      heard_once nodup mem]
    rfl
  · rw [if_neg fun hf => done (full.mp hf)] at deliver
    obtain ⟨states, logged, timers⟩ :=
      Transport.acceptRest_waiting t split.tid (t.openState split.tid) s'
    rw [← deliver] at states logged timers
    refine ⟨fixed.reliable.trans h.mode, timers.trans h.idle, fixed.listeners.trans h.listening,
      fun all => absurd all done, fun _ => ⟨fun listener => ?_, ?_⟩⟩
    · rw [Transport.heard, logged]
      exact silent listener
    · rw [states, if_pos rfl, Option.getD_some]
      refine ⟨takes.genuine, fun p hp => ?_⟩
      rw [takes.got p hp, got p hp, List.mem_append, List.mem_singleton]

/-! ## Whole runs -/

/-- Packets that come to a transport that is not reliable. -/
theorem run_packets (inv : List JSONTransportPacket → Transport → Prop)
    {all : List JSONTransportPacket}
    (mode : ∀ l t, inv l t → t.reliable = none ∧ t.nackTimers = [])
    (later : ∀ l t n, inv l t → inv l { t with now := t.now + n })
    (packet : ∀ l t q, inv l t → t.expiredPartials = [] → l ++ [q] <+: all →
      inv (l ++ [q]) (t.deliver q.wire))
    {is : List Input} (run : Run Transport.input Unexpired t is t')
    (texts : is.filterMap Input.text? = all.map JSONTransportPacket.wire) (h : inv [] t) :
    inv all t' := by
  apply run_arrivals inv packet _ _ later (fun _ _ h => h) run texts (List.nil_append all) h
  · intro l t x h _ armed
    rw [(mode l t h).2] at armed
    cases armed
  · intro l t h live
    rw [Transport.cleanup_plain (mode l t h).1 live]
    exact h

/-- A message whose manifest does not pass its check is never heard. -/
theorem never_heard {cid : Nat → JSString} {pieces : List Piece} (made : MadeOf cid split pieces doc)
    (unsound : ¬ Sound pieces) {own : SplitOptions} {partialTtlMs now : Nat} {is : List Input}
    {ps : List JSONTransportPacket} (order : ps.Perm split.packets)
    (texts : is.filterMap Input.text? = ps.map JSONTransportPacket.wire)
    (run : Run Transport.input Unexpired (.listening own partialTtlMs none now listeners) is t)
    (listener : Nat) : t.heard listener = [] := by
  have bad : validateManifest split.manifest ≠ none := fun h =>
    unsound ((validateManifest_none made).mp h)
  obtain ⟨states, _, timers, log⟩ := listening_idle own partialTtlMs none now listeners
  have start : Shapeless split (.listening own partialTtlMs none now listeners) := by
    refine ⟨listening_mode _ _ _ _ _, timers, fun s hs => ?_, fun listener => ?_⟩
    · rw [states] at hs
      cases hs
    · rw [Transport.heard, log]
      rfl
  have step : ∀ l t q, Shapeless split t → t.expiredPartials = [] → l ++ [q] <+: ps →
      Shapeless split (t.deliver q.wire) := by
    intro l t q h live pre
    have hq : q ∈ split.packets := order.mem_iff.mp (pre.subset (by simp))
    exact shapeless_packet h bad live hq (made.packets_tid q hq) (made.packets_wf q hq)
  have last := run_packets (fun _ t => Shapeless split t) (fun _ _ h => ⟨h.mode, h.idle⟩)
    (fun _ _ _ h => ⟨h.mode, h.idle, h.bare, h.silent⟩) step run texts start
  exact last.silent listener

/-- A message that can be put together is heard once. -/
theorem heard_of_carries (carries : Carries split doc) {own : SplitOptions} {partialTtlMs now : Nat}
    {is : List Input} {ps : List JSONTransportPacket} (order : ps.Perm split.packets)
    (texts : is.filterMap Input.text? = ps.map JSONTransportPacket.wire)
    (run : Run Transport.input Unexpired (.listening own partialTtlMs none now listeners) is t)
    {listener : Nat} (mem : listener ∈ listeners) : t.heard listener = [doc] := by
  obtain ⟨states, _, timers, log⟩ := listening_idle own partialTtlMs none now listeners
  have nodup : (Transport.listening own partialTtlMs none now listeners).listeners.Nodup :=
    onMessage_nodup listeners .nil
  have start : Arriving split doc (Transport.listening own partialTtlMs none now listeners).listeners
      [] (.listening own partialTtlMs none now listeners) := by
    refine ⟨listening_mode _ _ _ _ _, timers, rfl, fun all => ?_, fun _ => ⟨fun listener => ?_, ?_, ?_⟩⟩
    · cases all (.manifest split.manifest) (mem_splitPackets.mpr (.inl rfl))
    · rw [Transport.heard, log]
      rfl
    · rw [states]
      exact genuine_fresh _ _ _
    · intro q hq
      rw [states]
      rcases mem_splitPackets.mp hq with rfl | ⟨c, _, rfl⟩ | rfl <;>
        simp [JSONReceiveState.fresh, JSONReceiveState.chunk?]
  have distinct : ps.Nodup := order.nodup_iff.mpr carries.packets_nodup
  have step : ∀ l t q,
      Arriving split doc (Transport.listening own partialTtlMs none now listeners).listeners l t →
      t.expiredPartials = [] → l ++ [q] <+: ps →
      Arriving split doc (Transport.listening own partialTtlMs none now listeners).listeners
        (l ++ [q]) (t.deliver q.wire) := by
    intro l t q h live pre
    obtain ⟨hps, fresh⟩ := fresh_of_prefix distinct pre
    exact arriving_packet carries nodup h live (order.mem_iff.mp hps) fresh
  have last := run_packets _ (fun _ _ h => ⟨h.mode, h.idle⟩)
    (fun _ _ _ h => ⟨h.mode, h.idle, h.listening, h.done, h.waiting⟩) step run texts start
  exact last.done (fun q hq => order.mem_iff.mpr hq) listener (onMessage_mem listeners (.inl mem))

/-! ## Both paths -/

/-- What of a message gets through a transport: nothing that prints is lost in the
copy, no string is cut out below an own `__proto__`, and the chunk ids the message
draws are distinct. -/
structure JSValue.Survives (data : JSValue) (options : SplitOptions) (ids : Ids) : Prop where
  kept : data.kept = true
  clear : ∀ spot ∈ data.spots options [], PROTO ∉ spot.1
  distinct : ((List.range (data.spots options []).length).map ids.cid).Nodup

theorem sound_iff {cid : Nat → JSString} {pieces : List Piece} {data : JSValue}
    {options : SplitOptions} (made : MadeOf cid split pieces doc)
    (spots : pieces.map Piece.spot = data.spots options []) :
    Sound pieces ↔ (∀ spot ∈ data.spots options [], PROTO ∉ spot.1) ∧
      ((List.range (data.spots options []).length).map cid).Nodup := by
  have count : pieces.length = (data.spots options []).length := by
    rw [← spots, List.length_map]
  have clear : (∀ p ∈ pieces, PROTO ∉ p.place) ↔ ∀ spot ∈ data.spots options [], PROTO ∉ spot.1 := by
    rw [← spots]
    simp [Piece.spot]
  rw [← clear, ← count, ← made.cids]
  exact ⟨fun h => ⟨h.clear, h.cids⟩, fun h => ⟨h.2, h.1⟩⟩

/-- Where the listeners hear the document of a sound message and nothing of another, they
hear what was sent if it survives. -/
theorem survives_iff {data : JSValue} {options : SplitOptions} {ids : Ids} {pieces : List Piece}
    (wf : data.Wf) (copied : data.copy.image = some doc) (made : MadeOf ids.cid split pieces doc)
    (spots : pieces.map Piece.spot = data.spots options []) {js : List Json}
    (heard : Sound pieces → js = [doc]) (refused : ¬ Sound pieces → js = []) :
    js = data.raw.toList ↔ data.Survives options ids := by
  have sound := sound_iff made spots
  rw [JSValue.raw_eq wf]
  have prints : ∃ j, data.image = some j := by
    rw [← Option.ne_none_iff_exists']
    intro omitted
    rw [(image_copy_none data).mpr omitted] at copied
    cases copied
  obtain ⟨j, hj⟩ := prints
  by_cases h : Sound pieces
  · have clear := sound.mp h
    rw [heard h, hj]
    constructor
    · intro same
      obtain rfl : doc = j := by simpa using same
      exact ⟨(kept_iff data).mpr (copied.trans hj.symm), clear.1, clear.2⟩
    · intro survives
      rw [(kept_iff data).mp survives.kept, hj] at copied
      obtain rfl := Option.some.inj copied
      rfl
  · rw [refused h, hj]
    constructor
    · intro same
      cases same
    · intro survives
      exact absurd (sound.mpr ⟨survives.clear, survives.distinct⟩) h

/-- **When the two delivery paths agree.** `splitJSON` throws for no message whose
characters fit a chunk. A receiver that gets the packets of the message, in any
order and at any pace that expires no partial, calls each listener once with what
`JSON.parse(JSON.stringify(data))` is, exactly if the message survives the copy and
its chunk ids are distinct. -/
theorem paths_agree {data : JSValue} {options : SplitOptions} {ids : Ids} (wf : data.Wf)
    (container : data.isContainer = true) :
    (0 < options.chunkBytes → data.Fits options [] →
      ∃ split, splitJSON data options ids = some split) ∧
    ∀ split, splitJSON data options ids = some split →
      ∀ {own : SplitOptions} {partialTtlMs now : Nat} {listeners : List Nat} {listener : Nat}
        {is : List Input} {ps : List JSONTransportPacket} {t : Transport},
        listener ∈ listeners → ps.Perm split.packets →
        is.filterMap Input.text? = ps.map JSONTransportPacket.wire →
        Run Transport.input Unexpired (.listening own partialTtlMs none now listeners) is t →
        (t.heard listener = data.raw.toList ↔ data.Survives options ids) := by
  refine ⟨fun pos fits => splitJSON_fits pos fits ids, ?_⟩
  intro split hsplit own partialTtlMs now listeners listener is ps t mem order texts run
  obtain ⟨pieces, doc, copied, made, spots, _⟩ := splitJSON_madeOf wf container hsplit
  apply survives_iff wf copied made spots
  · exact fun sound => heard_of_carries ⟨_, _, made, sound⟩ order texts run mem
  · exact fun unsound => never_heard made unsound order texts run listener

theorem paths_agree_note :
    ∃ t, exec Transport.input (.listening .default DEFAULT_PARTIAL_TTL_MS none 0 [0])
        (note.split.packets.map fun q => .packet q.wire) = some t ∧
      t.heard 0 = (JSValue.ofJson note.value).raw.toList := by
  obtain ⟨t, run⟩ := Run.of_allGood Transport.input Unexpired
    (.listening .default DEFAULT_PARTIAL_TTL_MS none 0 [0])
    (note.split.packets.map fun q => .packet q.wire) (by decide +kernel)
  have texts : (note.split.packets.map fun q => Input.packet q.wire).filterMap Input.text? =
      note.split.packets.map JSONTransportPacket.wire := by
    simp [List.filterMap_map, Function.comp_def, Input.text?]
  have survives : (JSValue.ofJson note.value).Survives noteOptions noteIds :=
    ⟨by decide +kernel, by decide +kernel, by decide +kernel⟩
  have agree := (paths_agree (JSValue.wf_ofJson note.wf) rfl).2 note.split note.made
    (List.mem_singleton.mpr rfl) (.refl _) texts run
  exact ⟨t, run.exec_eq, agree.mpr survives⟩

/-- A message with a `Date`. -/
def dated : JSValue :=
  .obj [(lit "at", .obj [] (some (.str (lit "2024-01-01T00:00:00.000Z"))))] none

/-- A `Date` arrives as an empty object, and only through a transport. -/
theorem date_is_lost :
    ((splitJSON dated .default noteIds).bind fun split =>
        (exec Transport.input (.listening .default DEFAULT_PARTIAL_TTL_MS none 0 [0])
          (split.packets.map fun q => .packet q.wire)).map (·.heard 0)) =
      some [.obj [(lit "at", .obj [])]] ∧
    dated.raw = some (.obj [(lit "at", .str (lit "2024-01-01T00:00:00.000Z"))]) := by
  decide +kernel

end LemonModel
