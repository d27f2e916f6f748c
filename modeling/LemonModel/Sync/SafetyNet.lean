import LemonModel.Sync.Pull

/-!
# The safety net

A handle, the server it pulls from, and the pages of an answer on their way. A page
raises the watermark when it is applied, so a pull that ends between its pages leaves
behind what it had not brought. `pull_completes_the_store`: a run in which no pull
ends so that something is left behind keeps the promise of the safety net.
-/

namespace LemonModel

open Text ModelSyncHandle

/-- The answer to a pull: what the server held, and the pages that did not arrive yet. -/
structure PullAnswer (M : Type) where
  snapshot : Dict JSString M
  pages : List (List M)

/-- A handle and its server. `history` has every version the server ever held, the
newest first, and `completed` what it held for the last pull that was completed. -/
structure PullSystem (M : Type) where
  handle : ModelSyncHandle M
  history : List M
  models : Dict JSString M
  answer : Option (PullAnswer M)
  completed : Option (Dict JSString M)

/-- What can happen to a handle and its server. -/
inductive PullSystemEvent (M : Type) where
  /-- the server creates or updates a model -/
  | change (m : M)
  /-- the server answers the first request of a pull -/
  | answer (pages : List (List M))
  /-- something happens to the handle -/
  | handle (e : HandleEvent M)

variable {M : Type} [SyncTarget M] [DecidableEq M]

/-- Whether the request for what is newer than `since` asks for `m`. -/
def asksFor (versionOf : M → Option ℚ) (since : Option ℚ) (m : M) : Bool :=
  match since, versionOf m with
  | some w, some v => w < v
  | _, _ => true

namespace PullSystem

def create (adapter : SyncProtocolAdapter M) : PullSystem M :=
  ⟨ModelSyncHandle.create adapter, [], .empty, none, none⟩

/-- What is still to arrive of the answer. -/
def coming (s : PullSystem M) : List M :=
  match s.answer with
  | some a => a.pages.flatten
  | none => []

/-- Whether `m` is a live content with a greater version than any before. -/
def fresh (s : PullSystem M) (m : M) : Bool :=
  !deleted m && match s.handle.versionOf m with
    | some v => s.history.all fun n => match s.handle.versionOf n with
      | some w => w < v
      | none => false
    | none => false

/-- An event of the handle that can happen: batches are made of what the server sent
at some time, a page is the next one of the answer. -/
def possible (s : PullSystem M) : HandleEvent M → Bool
  | .event (some models) => models.all (· ∈ s.history)
  | .page models next =>
    match s.answer with
    | some ⟨_, page :: rest⟩ => models = page ∧ next = !rest.isEmpty
    | _ => false
  | _ => true

/-- The answer after an event of the handle. -/
def answerAfter (s : PullSystem M) : HandleEvent M → Option (PullAnswer M)
  | .page _ _ => s.answer.map fun a => { a with pages := a.pages.tail }
  | _ => s.answer

/-- The system after an event took the handle to `h`. -/
def moved (s : PullSystem M) (e : HandleEvent M) (h : ModelSyncHandle M) : PullSystem M :=
  if s.handle.pulling.isSome ∧ h.pulling.isNone then
    { s with
      handle := h
      answer := none
      completed := if succeeded h then s.answer.map (·.snapshot) else s.completed }
  else { s with handle := h, answer := s.answerAfter e }

/-- One event; `none` where it cannot happen. -/
def step (s : PullSystem M) : PullSystemEvent M → Option (PullSystem M)
  | .change m =>
    match SyncTarget.id m with
    | some id =>
      if s.fresh m then
        some { s with history := m :: s.history, models := s.models.set id m }
      else none
    | none => none
  | .answer pages =>
    match s.handle.pulling, s.answer with
    | some p, none =>
      if p.phase = .requesting ∧ pages ≠ [] ∧ pages.flatten.Perm
          ((s.models.entries.map (·.2)).filter (asksFor s.handle.versionOf p.since)) then
        some { s with answer := some ⟨s.models, pages⟩ }
      else none
    | _, _ => none
  | .handle e =>
    if s.possible e then (s.handle.step e).map (s.moved e) else none

/-- The store has `m` or something newer. -/
def Held (h : ModelSyncHandle M) (m : M) : Prop := Holds h.versionOf h.store m

/-- Whether a pull that starts now asks for `m`. -/
def Asked (h : ModelSyncHandle M) (m : M) : Prop := asksFor h.versionOf h.since m = true

/-- No pull ends while something of its answer did not arrive that the watermark is
past and the store does not have. -/
def NothingLeft (s : PullSystem M) : PullSystemEvent M → Prop
  | .handle .fail | .handle (.told false) =>
    ∀ m ∈ s.coming, Held s.handle m ∨ Asked s.handle m
  | _ => True

/-! ## The invariant -/

structure Sound (s : PullSystem M) : Prop where
  versions : ∀ m ∈ s.history, deleted m = false ∧ ∃ x v, VersionOf s.handle.versionOf x m v
  apart : ∀ m ∈ s.history, ∀ n ∈ s.history,
    s.handle.versionOf m = s.handle.versionOf n → m = n
  newest : ∀ x m, s.models.get? x = some m → m ∈ s.history ∧ SyncTarget.id m = some x ∧
    ∀ n ∈ s.history, ∀ v w, VersionOf s.handle.versionOf x n v →
      s.handle.versionOf m = some w → v ≤ w
  listed : ∀ m ∈ s.history, ∀ x, SyncTarget.id m = some x → ∃ n, s.models.get? x = some n
  stored : ∀ x m, s.handle.store.get? x = some m → m ∈ s.history ∧ SyncTarget.id m = some x
  mark : s.handle.watermark = 0 ∨ ∃ m ∈ s.history, s.handle.versionOf m = some s.handle.watermark
  coming : ∀ m ∈ s.coming, m ∈ s.history
  since : ∀ p, s.handle.pulling = some p → s.answer = none → p.since = s.handle.since
  answered : ∀ a, s.answer = some a → ∃ p, s.handle.pulling = some p
  telling : ∀ p ls next, s.handle.pulling = some p → p.phase = .telling ls next →
    ∃ a, s.answer = some a ∧ (next = false → a.pages = [])
  covered : s.answer = none → ∀ x m, s.models.get? x = some m →
    Held s.handle m ∨ Asked s.handle m
  brought : ∀ a, s.answer = some a → ∀ x m, a.snapshot.get? x = some m →
    Held s.handle m ∨ m ∈ s.coming
  later : ∀ a, s.answer = some a → ∀ x m, s.models.get? x = some m →
    a.snapshot.get? x = some m ∨ Asked s.handle m ∧
      ∀ k ∈ s.coming, ∀ u v, s.handle.versionOf k = some u → s.handle.versionOf m = some v → u < v
  kept : ∀ snapshot, s.completed = some snapshot → ∀ x m, snapshot.get? x = some m →
    Held s.handle m

variable {s s' : PullSystem M}

omit [SyncTarget M] [DecidableEq M] in
theorem asked_iff {h : ModelSyncHandle M} {m : M} {v : ℚ} (hv : h.versionOf m = some v) :
    Asked h m ↔ h.watermark = 0 ∨ h.watermark < v := by
  unfold Asked asksFor ModelSyncHandle.since
  by_cases zero : h.watermark = 0
  · simp [zero]
  · simp [zero, hv]

omit [DecidableEq M] in
theorem fresh_iff {m : M} : s.fresh m = true ↔ deleted m = false ∧
    ∃ v, s.handle.versionOf m = some v ∧
      ∀ n ∈ s.history, ∃ w, s.handle.versionOf n = some w ∧ w < v := by
  unfold fresh
  rw [Bool.and_eq_true, Bool.not_eq_true']
  refine and_congr_right fun _ => ?_
  cases hv : s.handle.versionOf m with
  | none => simp
  | some v =>
    simp only [List.all_eq_true, Option.some.injEq, exists_eq_left']
    refine forall₂_congr fun n _ => ?_
    cases hw : s.handle.versionOf n with
    | none => simp
    | some w => simp

omit [DecidableEq M] in
theorem sound_create (adapter : SyncProtocolAdapter M) : (create adapter).Sound := by
  constructor
  case mark => exact .inl rfl
  all_goals
    intros
    simp_all [create, ModelSyncHandle.create, coming]

omit [DecidableEq M] in
theorem apart_change {m : M} (apart : ∀ n ∈ s.history, ∀ k ∈ s.history,
      s.handle.versionOf n = s.handle.versionOf k → n = k)
    (isFresh : s.fresh m = true) :
    ∀ n ∈ m :: s.history, ∀ k ∈ m :: s.history,
      s.handle.versionOf n = s.handle.versionOf k → n = k := by
  obtain ⟨-, v, hv, older⟩ := fresh_iff.mp isFresh
  have alone : ∀ n ∈ s.history, s.handle.versionOf m ≠ s.handle.versionOf n := by
    intro n hn same
    obtain ⟨w, hw, lt⟩ := older n hn
    rw [hv, hw] at same
    cases same
    exact lt_irrefl _ lt
  intro n hn k hk same
  rcases List.mem_cons.mp hn with new | old
  · rcases List.mem_cons.mp hk with new' | old'
    · rw [new, new']
    · rw [new] at same
      exact absurd same (alone k old')
  · rcases List.mem_cons.mp hk with new' | old'
    · rw [new'] at same
      exact absurd same.symm (alone n old)
    · exact apart n old k old' same

omit [SyncTarget M] [DecidableEq M] in
/-- What a store holds after a write. -/
theorem get?_written {models : Dict JSString M} {id x : JSString} {m n : M}
    (h : (models.set id m).get? x = some n) :
    (x = id ∧ n = m) ∨ (x ≠ id ∧ models.get? x = some n) := by
  by_cases hx : x = id
  · subst hx
    rw [Dict.get?_set_self] at h
    cases h
    exact .inl ⟨rfl, rfl⟩
  · rw [Dict.get?_set_ne _ _ hx] at h
    exact .inr ⟨hx, h⟩

omit [DecidableEq M] in
/-- A new version is asked for by the next pull. -/
theorem sound_change {m : M} {id : JSString} (sound : s.Sound) (hid : SyncTarget.id m = some id)
    (isFresh : s.fresh m = true) :
    Sound { s with history := m :: s.history, models := s.models.set id m } := by
  obtain ⟨live, v, hv, older⟩ := fresh_iff.mp isFresh
  have asked : Asked s.handle m := by
    rw [asked_iff hv]
    rcases sound.mark with zero | ⟨n, hn, hw⟩
    · exact .inl zero
    · obtain ⟨w, hw', lt⟩ := older n hn
      rw [hw] at hw'
      cases hw'
      exact .inr lt
  exact {
    versions := by
      intro n hn
      rcases List.mem_cons.mp hn with rfl | hn
      · exact ⟨live, id, v, hid, hv⟩
      · exact sound.versions n hn
    apart := apart_change sound.apart isFresh
    newest := by
      intro x n hn
      rcases get?_written hn with ⟨rfl, rfl⟩ | ⟨hx, hn⟩
      · refine ⟨List.mem_cons_self .., hid, fun k hk u w hu hw => ?_⟩
        rw [hv] at hw
        cases hw
        rcases List.mem_cons.mp hk with rfl | hk
        · exact le_of_eq (Option.some.inj (hu.2.symm.trans hv))
        · obtain ⟨u', hu', lt⟩ := older k hk
          rw [hu.2] at hu'
          cases hu'
          exact lt.le
      · obtain ⟨mem, idn, most⟩ := sound.newest x n hn
        refine ⟨List.mem_cons_of_mem _ mem, idn, fun k hk u w hu hw => ?_⟩
        rcases List.mem_cons.mp hk with rfl | hk
        · exact absurd (Option.some.inj (hu.1.symm.trans hid)) hx
        · exact most k hk u w hu hw
    listed := by
      intro n hn x idn
      by_cases hx : x = id
      · exact ⟨m, by rw [hx, Dict.get?_set_self]⟩
      · rcases List.mem_cons.mp hn with rfl | hn
        · exact absurd (Option.some.inj (idn.symm.trans hid)) hx
        · obtain ⟨k, hk⟩ := sound.listed n hn x idn
          exact ⟨k, by rw [Dict.get?_set_ne _ _ hx, hk]⟩
    stored := fun x n hn =>
      ⟨List.mem_cons_of_mem _ (sound.stored x n hn).1, (sound.stored x n hn).2⟩
    mark := by
      rcases sound.mark with zero | ⟨n, hn, hw⟩
      · exact .inl zero
      · exact .inr ⟨n, List.mem_cons_of_mem _ hn, hw⟩
    coming := fun n hn => List.mem_cons_of_mem _ (sound.coming n hn)
    since := sound.since
    answered := sound.answered
    telling := sound.telling
    covered := by
      intro none x n hn
      rcases get?_written hn with ⟨rfl, rfl⟩ | ⟨-, hn⟩
      · exact .inr asked
      · exact sound.covered none x n hn
    brought := sound.brought
    later := by
      intro a ha x n hn
      rcases get?_written hn with ⟨rfl, rfl⟩ | ⟨-, hn⟩
      · refine .inr ⟨asked, fun k hk u w hu hw => ?_⟩
        obtain ⟨u', hu', lt⟩ := older k (sound.coming k hk)
        rw [hu] at hu'
        rw [hv] at hw
        cases hu'
        cases hw
        exact lt
      · exact sound.later a ha x n hn
    kept := sound.kept }

omit [DecidableEq M] in
/-- The server answers with all that the pull asks for. -/
theorem sound_answer {p : Pull M} {pages : List (List M)} (sound : s.Sound)
    (hp : s.handle.pulling = some p) (none : s.answer = none) (requesting : p.phase = .requesting)
    (all : pages.flatten.Perm
      ((s.models.entries.map (·.2)).filter (asksFor s.handle.versionOf p.since))) :
    Sound { s with answer := some ⟨s.models, pages⟩ } := by
  have inAll {m : M} : m ∈ pages.flatten ↔
      (∃ x, s.models.get? x = some m) ∧ Asked s.handle m := by
    rw [all.mem_iff, List.mem_filter, sound.since p hp none]
    simp only [List.mem_map, Prod.exists, exists_eq_right, ← Dict.get?_eq_some]
    rfl
  exact {
    sound with
    coming := by
      intro m hm
      obtain ⟨⟨x, hx⟩, -⟩ := inAll.mp hm
      exact (sound.newest x m hx).1
    since := fun _ _ h => nomatch h
    answered := fun _ _ => ⟨p, hp⟩
    telling := by
      intro q ls next hq telling
      obtain rfl : q = p := Option.some.inj (hq.symm.trans hp)
      rw [requesting] at telling
      cases telling
    covered := fun h => nomatch h
    brought := by
      intro a ha x m hm
      cases ha
      rcases sound.covered none x m hm with held | asked
      · exact .inl held
      · exact .inr (inAll.mpr ⟨⟨x, hm⟩, asked⟩)
    later := by
      intro a ha x m hm
      cases ha
      exact .inl hm }

/-- The models that come with a page. -/
def pageOf : HandleEvent M → List M
  | .page models _ => models
  | _ => []

omit [SyncTarget M] in
theorem possible_page {models : List M} {next : Bool}
    (possible : s.possible (.page models next) = true) :
    ∃ snapshot rest, s.answer = some ⟨snapshot, models :: rest⟩ ∧ next = !rest.isEmpty := by
  simp only [PullSystem.possible] at possible
  split at possible
  · rename_i snapshot page rest ha
    obtain ⟨rfl, hnext⟩ := of_decide_eq_true possible
    exact ⟨snapshot, rest, ha, hnext⟩
  · cases possible

omit [SyncTarget M] in
theorem coming_split {e : HandleEvent M} (possible : s.possible e = true) :
    s.coming = pageOf e ++ coming { s with answer := s.answerAfter e } := by
  cases e with
  | page models next =>
    obtain ⟨snapshot, rest, ha, -⟩ := possible_page possible
    simp only [coming, ha, answerAfter, pageOf, Option.map_some, List.flatten_cons,
      List.tail_cons]
  | _ => rfl

theorem arriving_known {e : HandleEvent M} (sound : s.Sound) (possible : s.possible e = true) :
    ∀ m ∈ s.handle.arriving e, m ∈ s.history := by
  intro m hm
  cases e with
  | event models =>
    cases models with
    | none => cases hm
    | some models =>
      simp only [arriving] at hm
      split at hm
      · cases hm
      · exact of_decide_eq_true (List.all_eq_true.mp possible m hm)
  | page models next =>
    refine sound.coming m ?_
    rw [coming_split possible]
    exact List.mem_append_left _ hm
  | _ => cases hm

/-- What an event of the handle does to store and watermark. -/
structure Effect (s : PullSystem M) (e : HandleEvent M) (h' : ModelSyncHandle M) : Prop where
  versionOf : h'.versionOf = s.handle.versionOf
  held : ∀ m, Held s.handle m ∨ m ∈ pageOf e → Held h' m
  asked : ∀ m ∈ s.history, Asked s.handle m →
    (∀ k ∈ pageOf e, ∀ u v, s.handle.versionOf k = some u → s.handle.versionOf m = some v →
      u < v) → Asked h' m
  stored : ∀ x m, h'.store.get? x = some m → m ∈ s.history ∧ SyncTarget.id m = some x
  mark : h'.watermark = 0 ∨ ∃ m ∈ s.history, s.handle.versionOf m = some h'.watermark

theorem effect {e : HandleEvent M} {h' : ModelSyncHandle M} (sound : s.Sound)
    (possible : s.possible e = true) (hstep : s.handle.step e = some h') : Effect s e h' := by
  obtain ⟨versionOf, store, watermark⟩ := step_parts hstep
  have known := arriving_known sound possible
  -- the watermark stays, or is the version of a model of the page
  have mark : h'.watermark = s.handle.watermark ∨
      ∃ k ∈ pageOf e, s.handle.versionOf k = some h'.watermark := by
    cases e with
    | page models next =>
      rw [watermark]
      rcases raise_from s.handle.versionOf s.handle.watermark
        (applyModels s.handle.versionOf s.handle.store models).2 with same | ⟨k, hk, hw⟩
      · exact .inl same
      · have hk' := applied_sub hk
        obtain ⟨-, x, v, hv⟩ := sound.versions k (known k hk')
        rw [hv.2] at hw
        exact .inr ⟨k, hk', hv.2.trans (congrArg some hw)⟩
    | _ => exact .inl watermark
  have pageKnown : ∀ k ∈ pageOf e, k ∈ s.history := by
    cases e with
    | page models next => exact known
    | _ => exact fun k hk => nomatch hk
  refine ⟨versionOf, fun m hm => ?_, fun m hm asked newer => ?_, fun x m hm => ?_, ?_⟩
  · unfold Held
    rw [versionOf, store]
    refine applyModels_holds (fun n hn => (sound.versions n (known n hn)).1) (hm.imp_right ?_)
    cases e with
    | page models next => exact id
    | _ => exact fun h => nomatch h
  · obtain ⟨-, x, v, hv⟩ := sound.versions m hm
    rw [asked_iff (h := h') (by rw [versionOf]; exact hv.2)]
    rcases mark with same | ⟨k, hk, hw⟩
    · rw [same]
      exact (asked_iff hv.2).mp asked
    · exact .inr (newer k hk _ v hw hv.2)
  · rw [store] at hm
    rcases applyModels_from hm with hm | ⟨hm, idm⟩
    · exact sound.stored x m hm
    · exact ⟨known m hm, idm⟩
  · rcases mark with same | ⟨k, hk, hw⟩
    · rw [same]
      exact sound.mark
    · exact .inr ⟨k, pageKnown k hk, hw⟩

section

variable {e : HandleEvent M} {h' : ModelSyncHandle M} (sound : s.Sound)
  (possible : s.possible e = true) (hstep : s.handle.step e = some h')

include sound possible hstep

theorem brought_after {a : PullAnswer M} (ha : s.answer = some a) {x : JSString} {m : M}
    (hm : a.snapshot.get? x = some m) :
    Held h' m ∨ m ∈ coming { s with answer := s.answerAfter e } := by
  have held := (effect sound possible hstep).held
  rcases sound.brought a ha x m hm with h | h
  · exact .inl (held m (.inl h))
  · rw [coming_split possible] at h
    rcases List.mem_append.mp h with h | h
    · exact .inl (held m (.inr h))
    · exact .inr h

theorem later_after {a : PullAnswer M} (ha : s.answer = some a) {x : JSString} {m : M}
    (hm : s.models.get? x = some m) :
    a.snapshot.get? x = some m ∨ Asked h' m ∧
      ∀ k ∈ coming { s with answer := s.answerAfter e }, ∀ u v,
        s.handle.versionOf k = some u → s.handle.versionOf m = some v → u < v := by
  rcases sound.later a ha x m hm with h | ⟨asked, newer⟩
  · exact .inl h
  · rw [coming_split possible] at newer
    refine .inr ⟨?_, fun k hk => newer k (List.mem_append_right _ hk)⟩
    exact (effect sound possible hstep).asked m (sound.newest x m hm).1 asked
      fun k hk => newer k (List.mem_append_left _ hk)

/-- Without an answer no page comes, so what was asked for still is. -/
theorem covered_after (none : s.answer = none) {x : JSString} {m : M}
    (hm : s.models.get? x = some m) : Held h' m ∨ Asked h' m := by
  have noPage : pageOf e = [] := by
    cases e with
    | page models next =>
      obtain ⟨snapshot, rest, ha, -⟩ := possible_page possible
      rw [none] at ha
      cases ha
    | _ => rfl
  obtain ⟨-, held, asked, -, -⟩ := effect sound possible hstep
  rw [noPage] at held asked
  rcases sound.covered none x m hm with h | h
  · exact .inl (held m (.inl h))
  · exact .inr (asked m (sound.newest x m hm).1 h fun k hk => nomatch hk)

/-- What holds whether the pull goes on or ends. -/
theorem sound_parts {answer : Option (PullAnswer M)} {completed : Option (Dict JSString M)}
    (fewer : ∀ m, m ∈ coming { s with answer := answer } → m ∈ s.coming)
    (since : ∀ p, h'.pulling = some p → answer = none → p.since = h'.since)
    (answered : ∀ a, answer = some a → ∃ p, h'.pulling = some p)
    (telling : ∀ p ls next, h'.pulling = some p → p.phase = .telling ls next →
      ∃ a, answer = some a ∧ (next = false → a.pages = []))
    (covered : answer = none → ∀ x m, s.models.get? x = some m → Held h' m ∨ Asked h' m)
    (brought : ∀ a, answer = some a → ∀ x m, a.snapshot.get? x = some m →
      Held h' m ∨ m ∈ coming { s with answer := answer })
    (later : ∀ a, answer = some a → ∀ x m, s.models.get? x = some m →
      a.snapshot.get? x = some m ∨ Asked h' m ∧ ∀ k ∈ coming { s with answer := answer }, ∀ u v,
        s.handle.versionOf k = some u → s.handle.versionOf m = some v → u < v)
    (kept : ∀ snapshot, completed = some snapshot → ∀ x m, snapshot.get? x = some m →
      Held h' m) :
    Sound { s with handle := h', answer := answer, completed := completed } := by
  obtain ⟨versionOf, -, -, stored, mark⟩ := effect sound possible hstep
  constructor
  case versions => rw [versionOf]; exact sound.versions
  case apart => rw [versionOf]; exact sound.apart
  case newest => rw [versionOf]; exact sound.newest
  case listed => exact sound.listed
  case stored => exact stored
  case mark => rw [versionOf]; exact mark
  case coming => exact fun m hm => sound.coming m (fewer m hm)
  case since => exact since
  case answered => exact answered
  case telling => exact telling
  case covered => exact covered
  case brought => exact brought
  case later => rw [versionOf]; exact later
  case kept => exact kept

theorem sound_goes (goes : s.handle.pulling.isSome = true → h'.pulling ≠ none) :
    Sound { s with handle := h', answer := s.answerAfter e } := by
  have none_before (h : s.answerAfter e = none) : s.answer = none := by
    cases e with
    | page models next => exact Option.map_eq_none_iff.mp h
    | _ => exact h
  have some_before {a : PullAnswer M} (h : s.answerAfter e = some a) :
      ∃ a₀, s.answer = some a₀ ∧ a.snapshot = a₀.snapshot := by
    cases e with
    | page models next =>
      obtain ⟨a₀, ha₀, rfl⟩ := Option.map_eq_some_iff.mp h
      exact ⟨a₀, ha₀, rfl⟩
    | _ => exact ⟨a, h, rfl⟩
  refine sound_parts sound possible hstep (fun m hm => ?_) (fun p hp none => ?_)
    (fun a ha => ?_) (fun p ls next hp phase => ?_)
    (fun none x m hm => covered_after sound possible hstep (none_before none) hm)
    (fun a ha x m hm => ?_) (fun a ha x m hm => ?_) (fun snapshot hs x m hm => ?_)
  · rw [coming_split possible]
    exact List.mem_append_right _ hm
  · have same : h'.since = s.handle.since := by
      obtain ⟨-, -, watermark⟩ := step_parts hstep
      cases e with
      | page models next =>
        obtain ⟨snapshot, rest, ha, -⟩ := possible_page possible
        rw [none_before none] at ha
        cases ha
      | _ => simp only [ModelSyncHandle.since, watermark, raised]
    rcases step_goes hstep hp with ⟨-, -, rfl⟩ | ⟨p₀, hp₀, before, -⟩
    · exact same.symm
    · rw [before, same]
      exact sound.since p₀ hp₀ (none_before none)
  · obtain ⟨a₀, ha₀, -⟩ := some_before ha
    obtain ⟨p, hp⟩ := sound.answered a₀ ha₀
    exact Option.ne_none_iff_exists'.mp (goes (by rw [hp]; rfl))
  · rcases step_goes hstep hp with ⟨-, -, rfl⟩ | ⟨p₀, hp₀, -, before⟩
    · cases phase
    · rcases before ls next phase with ⟨ls₀, phase₀⟩ | ⟨models, rfl⟩
      · obtain ⟨a, ha, last⟩ := sound.telling p₀ ls₀ next hp₀ phase₀
        cases e with
        | page models next' =>
          obtain ⟨p₁, hp₁, requesting, -⟩ := step_page hstep
          rw [hp₀] at hp₁
          cases hp₁
          rw [requesting] at phase₀
          cases phase₀
        | _ => exact ⟨a, ha, last⟩
      · obtain ⟨snapshot, rest, ha, rfl⟩ := possible_page possible
        refine ⟨⟨snapshot, rest⟩, by simp [answerAfter, ha], fun last => ?_⟩
        simpa using last
  · obtain ⟨a₀, ha₀, same⟩ := some_before ha
    rw [same] at hm
    exact brought_after sound possible hstep ha₀ hm
  · obtain ⟨a₀, ha₀, same⟩ := some_before ha
    rw [same]
    exact later_after sound possible hstep ha₀ hm
  · exact (effect sound possible hstep).held m (.inl (sound.kept snapshot hs x m hm))

theorem sound_ends {p : Pull M} (hp : s.handle.pulling = some p) (ended : h'.pulling = none)
    (nothingLeft : NothingLeft s (.handle e)) :
    Sound { s with
      handle := h'
      answer := none
      completed := if h'.succeeded then s.answer.map (·.snapshot) else s.completed } := by
  -- what the answer had is there, or another pull asks for it
  have left {a : PullAnswer M} (ha : s.answer = some a) {x : JSString} {m : M}
      (hm : a.snapshot.get? x = some m) :
      Held h' m ∨ h'.succeeded = false ∧ (m ∈ s.history → Asked h' m) := by
    rcases step_ends hstep hp ended with ⟨succeeded, last⟩ | ⟨failed, how⟩
    · have allCame : coming { s with answer := s.answerAfter e } = [] := by
        rcases last with ⟨models, rfl⟩ | ⟨rfl, ls, phase⟩
        · obtain ⟨snapshot, rest, ha, hrest⟩ := possible_page possible
          obtain rfl : rest = [] := by simpa using hrest
          simp only [coming, answerAfter, ha, Option.map_some, List.tail_cons, List.flatten_nil]
        · obtain ⟨a, ha, last⟩ := sound.telling p ls false hp phase
          simp only [coming, answerAfter, ha, last rfl, List.flatten_nil]
      rcases brought_after sound possible hstep ha hm with held | came
      · exact .inl held
      · rw [allCame] at came
        cases came
    · have unheard : pageOf e = [] ∧ s.coming = coming { s with answer := s.answerAfter e } ∧
          ∀ k ∈ s.coming, Held s.handle k ∨ Asked s.handle k := by
        rcases how with rfl | rfl <;> exact ⟨rfl, rfl, nothingLeft⟩
      obtain ⟨noPage, same, nothingLeft⟩ := unheard
      rcases brought_after sound possible hstep ha hm with held | came
      · exact .inl held
      · rw [← same] at came
        obtain ⟨-, held, asked, -, -⟩ := effect sound possible hstep
        rw [noPage] at held asked
        rcases nothingLeft m came with h | h
        · exact .inl (held m (.inl h))
        · exact .inr ⟨failed, fun hm => asked m hm h fun k hk => nomatch hk⟩
  refine sound_parts sound possible hstep (fun m hm => nomatch hm)
    (fun p hp => ?_) (fun a ha => nomatch ha) (fun p ls next hp => ?_)
    (fun _ x m hm => ?_) (fun a ha => nomatch ha) (fun a ha => nomatch ha)
    (fun snapshot hs x m hm => ?_)
  · rw [ended] at hp
    cases hp
  · rw [ended] at hp
    cases hp
  · cases ha : s.answer with
    | none => exact covered_after sound possible hstep ha hm
    | some a =>
      rcases later_after sound possible hstep ha hm with old | ⟨asked, -⟩
      · rcases left ha old with held | ⟨-, asked⟩
        · exact .inl held
        · exact .inr (asked (sound.newest x m hm).1)
      · exact .inr asked
  · split at hs
    · rename_i succeeded
      obtain ⟨a, ha, rfl⟩ := Option.map_eq_some_iff.mp hs
      rcases left ha hm with held | ⟨failed, -⟩
      · exact held
      · rw [failed] at succeeded
        cases succeeded
    · exact (effect sound possible hstep).held m (.inl (sound.kept snapshot hs x m hm))

end

theorem sound_step {e : PullSystemEvent M} (sound : s.Sound) (good : NothingLeft s e)
    (hstep : s.step e = some s') : s'.Sound := by
  cases e with
  | change m =>
    simp only [step] at hstep
    split at hstep
    · rename_i id hid
      split at hstep
      · rename_i isFresh
        obtain rfl := Option.some.inj hstep
        exact sound_change sound hid isFresh
      · cases hstep
    · cases hstep
  | answer pages =>
    simp only [step] at hstep
    split at hstep
    · rename_i p hp none
      split at hstep
      · rename_i h
        obtain rfl := Option.some.inj hstep
        exact sound_answer sound hp none h.1 h.2.2
      · cases hstep
    · cases hstep
  | handle e =>
    simp only [step] at hstep
    split at hstep
    · rename_i possible
      obtain ⟨h', here, rfl⟩ := Option.map_eq_some_iff.mp hstep
      unfold moved
      split
      · rename_i ended
        obtain ⟨p, hp⟩ := Option.isSome_iff_exists.mp ended.1
        exact sound_ends sound possible here hp (Option.isNone_iff_eq_none.mp ended.2) good
      · rename_i goes
        refine sound_goes sound possible here fun before after => goes ⟨before, ?_⟩
        rw [after]
        rfl
    · cases hstep

/-- **The safety net.** Where no pull leaves anything behind, the store of a handle has
the server's content of every id after a pull that completed, as long as the server
stays as it answered. -/
theorem pull_completes_the_store (adapter : SyncProtocolAdapter M)
    {es : List (PullSystemEvent M)} (run : Run step NothingLeft (create adapter) es s)
    {snapshot : Dict JSString M} (completed : s.completed = some snapshot)
    (quiescent : s.models = snapshot) (x : JSString) :
    s.handle.store.get? x = s.models.get? x := by
  have sound := run.invariant Sound (fun _ _ _ h good hstep => sound_step h good hstep)
    (sound_create adapter)
  subst quiescent
  cases hx : s.models.get? x with
  | none =>
    cases hn : s.handle.store.get? x with
    | none => rfl
    | some n =>
      obtain ⟨hn, idn⟩ := sound.stored x n hn
      obtain ⟨k, hk⟩ := sound.listed n hn x idn
      rw [hx] at hk
      cases hk
  | some m =>
    obtain ⟨hm, idm, most⟩ := sound.newest x m hx
    obtain ⟨-, y, v, hv⟩ := sound.versions m hm
    obtain rfl : x = y := Option.some.inj (idm.symm.trans hv.1)
    obtain ⟨n, w, hn, hw, le⟩ := sound.kept _ completed x m hx x v hv
    obtain ⟨hn', idn⟩ := sound.stored x n hn
    have same : w = v := le_antisymm (most n hn' w v ⟨idn, hw⟩ hv.2) le
    rw [hn, sound.apart n hn' m hm (by rw [hw, hv.2, same])]

/-- Nothing of an answer is on its way when a pull fails. -/
def failsWithout (s : PullSystem M) : PullSystemEvent M → Bool
  | .handle .fail | .handle (.told false) => s.coming.isEmpty
  | _ => true

omit [DecidableEq M] in
theorem failsWithout_nothingLeft {e : PullSystemEvent M} (h : s.failsWithout e = true) :
    NothingLeft s e := by
  unfold failsWithout at h
  unfold NothingLeft
  split at h
  all_goals first | trivial | (rw [List.isEmpty_iff.mp h]; exact fun m hm => nomatch hm)

/-! ## Two notes on two pages -/

def first : Note := ⟨lit "a", 1, none⟩

def second : Note := ⟨lit "b", 2, none⟩

/-- The page of the newer note comes first. -/
def twoPages : List (PullSystemEvent Note) :=
  [.change first, .change second, .handle .pull, .handle .fail, .handle .pull,
    .answer [[second], [first]], .handle (.page [second] true)]

theorem pull_completes_the_store_notes : ∃ s : PullSystem Note,
    Run step NothingLeft (create ⟨none⟩) (twoPages ++ [.handle (.page [first] false)]) s ∧
      s.completed = some s.models ∧
      s.handle.store.get? (lit "a") = s.models.get? (lit "a") := by
  obtain ⟨s, run⟩ := Run.of_allGood step (fun s e => s.failsWithout e = true)
    (create (M := Note) ⟨none⟩) (twoPages ++ [.handle (.page [first] false)]) (by decide +kernel)
  have completed : s.completed = some s.models := of_decide_eq_true
    (run.read (f := fun s => decide (s.completed = some s.models)) (by decide +kernel))
  have safe := run.weaken fun _ _ => failsWithout_nothingLeft
  exact ⟨s, safe, completed, pull_completes_the_store ⟨none⟩ safe completed rfl (lit "a")⟩

/-- The watermark is past the older note when its page fails, so the next pull does
not ask for it, and completes without it. -/
theorem failed_page_is_lost : ∃ s : PullSystem Note,
    Run step (fun _ _ => True) (create ⟨none⟩)
        (twoPages ++ [.handle .fail, .handle .pull, .answer [[]], .handle (.page [] false)]) s ∧
      s.completed = some s.models ∧ s.models.get? (lit "a") = some first ∧
      s.handle.store.get? (lit "a") = none := by
  obtain ⟨s, run⟩ := Run.of_allGood step (fun _ _ => True) (create (M := Note) ⟨none⟩)
    (twoPages ++ [.handle .fail, .handle .pull, .answer [[]], .handle (.page [] false)])
    (by decide +kernel)
  refine ⟨s, run, ?_, ?_, ?_⟩
  · exact of_decide_eq_true
      (run.read (f := fun s => decide (s.completed = some s.models)) (by decide +kernel))
  · exact run.read (f := fun s => s.models.get? (lit "a")) (a := some first) (by decide +kernel)
  · exact run.read (f := fun s => s.handle.store.get? (lit "a")) (a := none) (by decide +kernel)

end PullSystem

end LemonModel
