import LemonModel.Sync.Handle

/-!
# Arrival orders

What a handle's store holds of one id after any order of event batches and pull
pages. `arrival_orders_agree`: two orders of the same versions leave what the
greatest version says, unless a deletion came before an older version and nothing
newer deleted that again.
-/

namespace LemonModel

open Text ModelSyncHandle

variable {M : Type} [SyncTarget M] {versionOf : M → Option ℚ} {x : JSString}

/-- The models an event of the handle brings. -/
def HandleEvent.models : HandleEvent M → List M
  | .event (some models) => models
  | .page models _ => models
  | _ => []

/-- Every model that arrives, in order. -/
def arrivals (es : List (HandleEvent M)) : List M := es.flatMap HandleEvent.models

/-- An event batch arrives at an open handle. -/
def Arrives (h : ModelSyncHandle M) : HandleEvent M → Prop
  | .event (some _) => h.closed = false
  | _ => True

instance (h : ModelSyncHandle M) (e : HandleEvent M) : Decidable (Arrives h e) :=
  match e with
  | .event (some _) => inferInstanceAs (Decidable (h.closed = false))
  | .event none | .pull | .page _ _ | .fail | .told _ | .onChange _ | .unsubscribe _ | .close =>
    isTrue trivial

/-- `m` is a version of `x`, of this number. -/
def VersionOf (versionOf : M → Option ℚ) (x : JSString) (m : M) (v : ℚ) : Prop :=
  SyncTarget.id m = some x ∧ versionOf m = some v

/-- `g` is the version of `x` with the greatest number. -/
def Greatest (versionOf : M → Option ℚ) (versions : List M) (x : JSString) (g : M) : Prop :=
  g ∈ versions ∧ ∃ v, VersionOf versionOf x g v ∧
    ∀ m ∈ versions, ∀ w, VersionOf versionOf x m w → w ≤ v

/-- What the versions say about `x`: the content of the greatest, absent if that is
a deletion or if there is none. -/
def Says (versionOf : M → Option ℚ) (versions : List M) (x : JSString) (r : Option M) : Prop :=
  (∀ g, Greatest versionOf versions x g → r = if deleted g then none else some g) ∧
    ((∀ m ∈ versions, ∀ v, ¬ VersionOf versionOf x m v) → r = none)

/-- Two contents of one id do not share a version number. -/
def Distinct (versionOf : M → Option ℚ) (versions : List M) : Prop :=
  ∀ m ∈ versions, ∀ n ∈ versions, ∀ x v,
    VersionOf versionOf x m v → VersionOf versionOf x n v → m = n

/-- Where the greatest version of `x` is a deletion, every other content of `x` that
arrives is followed by a newer deletion. -/
def Outdone (versionOf : M → Option ℚ) (versions l : List M) (x : JSString) : Prop :=
  ∀ g, Greatest versionOf versions x g → deleted g = true →
    ∀ before m after, l = before ++ m :: after → deleted m = false →
      ∀ v, VersionOf versionOf x m v →
        ∃ d ∈ after, deleted d = true ∧ ∃ w, VersionOf versionOf x d w ∧ v < w

/-! ## One id -/

/-- What the arrival of a version of `x` does to what is stored for `x`. -/
def arrive (versionOf : M → Option ℚ) (here : Option M) (m : M) : Option M :=
  match versionOf m with
  | none => here
  | some version =>
    if (here.map fun l => stale version (versionOf l)) = some true then here
    else if deleted m then none
    else some m

theorem applyOne_get? (store : Dict JSString M) (m : M) (x : JSString) :
    (applyOne versionOf store m).1.get? x =
      if SyncTarget.id m = some x then arrive versionOf (store.get? x) m else store.get? x := by
  unfold applyOne arrive
  cases hid : SyncTarget.id m with
  | none => simp
  | some id =>
    cases hv : versionOf m with
    | none => simp
    | some version =>
      by_cases hx : id = x
      · subst hx
        cases hs : store.get? id with
        | none => cases hd : deleted m <;> simp [hs]
        | some here =>
          cases hst : stale version (versionOf here) <;> cases hd : deleted m <;> simp [hs, hst]
      · have other : x ≠ id := Ne.symm hx
        have apart : ¬ some id = some x := by simpa using hx
        simp only [if_neg apart]
        split
        · split
          · rfl
          · rw [Dict.get?_set_ne _ _ other]
        · split
          · rfl
          · split
            · rw [Dict.get?_delete_ne _ other]
            · rw [Dict.get?_set_ne _ _ other]

theorem applyModels_get? (store : Dict JSString M) (models : List M) (x : JSString) :
    (applyModels versionOf store models).1.get? x =
      (models.filter fun m => SyncTarget.id m = some x).foldl (arrive versionOf) (store.get? x) := by
  induction models generalizing store with
  | nil => rfl
  | cons m models ih =>
    rw [applyModels]
    simp only
    rw [ih, applyOne_get?]
    by_cases h : SyncTarget.id m = some x
    · rw [List.filter_cons_of_pos (by simpa using h), if_pos h, List.foldl_cons]
    · rw [List.filter_cons_of_neg (by simpa using h), if_neg h]

omit [SyncTarget M] in
theorem arriving_eq {h : ModelSyncHandle M} {e : HandleEvent M} (good : Arrives h e) :
    h.arriving e = e.models := by
  cases e with
  | event models =>
    cases models with
    | none => rfl
    | some models =>
      have isOpen : h.closed = false := good
      rw [arriving, isOpen]
      rfl
  | _ => rfl

/-- What an event of a handle does to what is stored for `x`. -/
theorem step_get? {h h' : ModelSyncHandle M} {e : HandleEvent M} (good : Arrives h e)
    (hstep : h.step e = some h') :
    h'.versionOf = h.versionOf ∧ h'.store.get? x =
      (e.models.filter fun m => SyncTarget.id m = some x).foldl (arrive h.versionOf)
        (h.store.get? x) := by
  obtain ⟨versionOf, store, -⟩ := step_parts hstep
  exact ⟨versionOf, by rw [store, arriving_eq good, applyModels_get?]⟩

/-- A run leaves for `x` what its arrivals leave, one after the other. -/
theorem run_get? {h h' : ModelSyncHandle M} {es : List (HandleEvent M)}
    (run : Run ModelSyncHandle.step Arrives h es h') :
    h'.store.get? x =
      ((arrivals es).filter fun m => SyncTarget.id m = some x).foldl (arrive h.versionOf)
        (h.store.get? x) := by
  induction run with
  | nil => rfl
  | cons good hstep _ ih =>
    obtain ⟨same, get⟩ := step_get? good hstep
    rw [ih, same, get, ← List.foldl_append, ← List.filter_append]
    rfl

/-! ## What the arrivals of one id leave -/

/-- An arrival is without a number, stale, or newer than what is there. -/
theorem arrive_cases (versionOf : M → Option ℚ) (here : Option M) (m : M) :
    (arrive versionOf here m = here ∧ ∀ w, versionOf m = some w →
        ∃ l v, here = some l ∧ versionOf l = some v ∧ w ≤ v) ∨
      (arrive versionOf here m = (if deleted m then none else some m) ∧
        ∃ w, versionOf m = some w ∧
          ∀ l, here = some l → ∀ v, versionOf l = some v → v < w) := by
  unfold arrive
  cases hm : versionOf m with
  | none => exact .inl ⟨rfl, fun w hw => nomatch hw⟩
  | some w =>
    cases here with
    | none => exact .inr ⟨rfl, w, rfl, fun l hl => nomatch hl⟩
    | some l =>
      cases hl : versionOf l with
      | none =>
        refine .inr ⟨by simp [stale, hl], w, rfl, fun l' hl' v hv => ?_⟩
        cases hl'
        rw [hl] at hv
        cases hv
      | some v =>
        by_cases late : w ≤ v
        · refine .inl ⟨by simp [stale, hl, late], fun w' hw => ?_⟩
          cases hw
          exact ⟨l, v, rfl, hl, late⟩
        · refine .inr ⟨by simp [stale, hl, late], w, rfl, fun l' hl' v' hv => ?_⟩
          cases hl'
          rw [hl] at hv
          cases hv
          exact lt_of_not_ge late

/-- A content that is left is one that came, is live, and is older than nothing that
came after it. -/
theorem left_came {l : List M} {m : M} (h : l.foldl (arrive versionOf) none = some m) :
    deleted m = false ∧ ∃ v, versionOf m = some v ∧
      ∃ before after, l = before ++ m :: after ∧
        ∀ n ∈ after, ∀ w, versionOf n = some w → w ≤ v := by
  induction l using List.reverseRecOn generalizing m with
  | nil => cases h
  | append_singleton l n ih =>
    rw [List.foldl_append, List.foldl_cons, List.foldl_nil] at h
    rcases arrive_cases versionOf (l.foldl (arrive versionOf) none) n with ⟨same, late⟩ |
      ⟨new, w, hw, -⟩
    · rw [same] at h
      obtain ⟨live, v, hv, before, after, rfl, old⟩ := ih h
      refine ⟨live, v, hv, before, after ++ [n], by simp, fun k hk w hw => ?_⟩
      rcases List.mem_append.mp hk with hk | hk
      · exact old k hk w hw
      · obtain rfl := List.mem_singleton.mp hk
        obtain ⟨m', v', hm', hv', le⟩ := late w hw
        rw [h] at hm'
        cases hm'
        rw [hv] at hv'
        cases hv'
        exact le
    · rw [new] at h
      split at h
      · cases h
      · rename_i live
        cases h
        exact ⟨by simpa using live, w, hw, l, [], rfl, fun k hk => nomatch hk⟩

/-- A live content that came is followed by a newer deletion, or something at least
as new is left. -/
theorem came_left (before after : List M) {m : M} {v : ℚ} (live : deleted m = false)
    (hv : versionOf m = some v) :
    (∃ d ∈ after, deleted d = true ∧ ∃ w, versionOf d = some w ∧ v < w) ∨
      ∃ n w, (before ++ m :: after).foldl (arrive versionOf) none = some n ∧
        versionOf n = some w ∧ v ≤ w := by
  induction after using List.reverseRecOn with
  | nil =>
    right
    rw [List.foldl_append, List.foldl_cons, List.foldl_nil]
    rcases arrive_cases versionOf (before.foldl (arrive versionOf) none) m with ⟨same, late⟩ | ⟨new, -⟩
    · obtain ⟨l, w, hl, hw, le⟩ := late v hv
      exact ⟨l, w, same.trans hl, hw, le⟩
    · exact ⟨m, v, new.trans (if_neg (by simp [live])), hv, le_refl v⟩
  | append_singleton after n ih =>
    rcases ih with ⟨d, hd, dead, w, hw, lt⟩ | ⟨l, u, hl, hu, le⟩
    · exact .inl ⟨d, List.mem_append_left _ hd, dead, w, hw, lt⟩
    · rw [← List.cons_append, ← List.append_assoc, List.foldl_append, List.foldl_cons,
        List.foldl_nil, hl]
      rcases arrive_cases versionOf (some l) n with ⟨same, -⟩ | ⟨new, w, hw, newer⟩
      · exact .inr ⟨l, u, same, hu, le⟩
      · have lt : v < w := lt_of_le_of_lt le (newer l rfl u hu)
        cases dead : deleted n with
        | true => exact .inl ⟨n, by simp, dead, w, hw, lt⟩
        | false => exact .inr ⟨n, w, new.trans (if_neg (by simp [dead])), hw, lt.le⟩

theorem left_none {l : List M} (h : ∀ m ∈ l, versionOf m = none) :
    l.foldl (arrive versionOf) none = none := by
  induction l with
  | nil => rfl
  | cons m l ih =>
    have same : arrive versionOf none m = none := by simp [arrive, h m (List.mem_cons_self ..)]
    rw [List.foldl_cons, same]
    exact ih fun n hn => h n (List.mem_cons_of_mem _ hn)

/-! ## Convergence -/

theorem exists_greatest {versions : List M}
    (h : ∃ m ∈ versions, ∃ v, VersionOf versionOf x m v) :
    ∃ g, Greatest versionOf versions x g := by
  induction versions with
  | nil =>
    obtain ⟨m, hm, -⟩ := h
    cases hm
  | cons n versions ih =>
    by_cases rest : ∃ m ∈ versions, ∃ v, VersionOf versionOf x m v
    · obtain ⟨g, hg, v, hv, most⟩ := ih rest
      by_cases newer : ∃ w, VersionOf versionOf x n w ∧ v < w
      · obtain ⟨w, hw, lt⟩ := newer
        refine ⟨n, List.mem_cons_self .., w, hw, fun m hm u hu => ?_⟩
        rcases List.mem_cons.mp hm with rfl | hm
        · exact le_of_eq (Option.some.inj (hu.2.symm.trans hw.2))
        · exact (most m hm u hu).trans lt.le
      · refine ⟨g, List.mem_cons_of_mem _ hg, v, hv, fun m hm u hu => ?_⟩
        rcases List.mem_cons.mp hm with rfl | hm
        · exact le_of_not_gt fun lt => newer ⟨u, hu, lt⟩
        · exact most m hm u hu
    · obtain ⟨m, hm, v, hv⟩ := h
      rcases List.mem_cons.mp hm with rfl | hm
      · refine ⟨m, List.mem_cons_self .., v, hv, fun k hk u hu => ?_⟩
        rcases List.mem_cons.mp hk with rfl | hk
        · exact le_of_eq (Option.some.inj (hu.2.symm.trans hv.2))
        · exact absurd ⟨k, hk, u, hu⟩ rest
      · exact absurd ⟨m, hm, v, hv⟩ rest

/-- What is left of `x` is what the versions say exactly if the deleted is outdone. -/
theorem left_agrees_iff {versions l : List M} (distinct : Distinct versionOf versions)
    (all : ∀ m, m ∈ l ↔ m ∈ versions) :
    Says versionOf versions x
        ((l.filter fun m => SyncTarget.id m = some x).foldl (arrive versionOf) none) ↔
      Outdone versionOf versions l x := by
  have ofx {m : M} : m ∈ l.filter (fun m => SyncTarget.id m = some x) ↔
      m ∈ versions ∧ SyncTarget.id m = some x := by
    rw [List.mem_filter, all m, decide_eq_true_iff]
  constructor
  · intro agrees g hg dead before m after hl live v hv
    have gone := agrees.1 g hg
    rw [if_pos dead, hl, List.filter_append, List.filter_cons_of_pos (by simpa using hv.1)] at gone
    rcases came_left _ _ live hv.2 with ⟨d, hd, deadd, w, hw, lt⟩ | ⟨n, w, hn, -⟩
    · obtain ⟨hd, idd⟩ := List.mem_filter.mp hd
      exact ⟨d, hd, deadd, w, ⟨of_decide_eq_true idd, hw⟩, lt⟩
    · rw [gone] at hn
      cases hn
  · intro outdone
    constructor
    · intro g hg
      obtain ⟨ing, v, hv, most⟩ := hg
      cases dead : deleted g with
      | true =>
        rw [if_pos rfl]
        by_contra left
        obtain ⟨m, hm⟩ := Option.ne_none_iff_exists'.mp left
        obtain ⟨live, u, hu, before, after, hl, old⟩ := left_came hm
        obtain ⟨b, a, rfl, -, ha⟩ := List.filter_eq_append_iff.mp hl
        obtain ⟨b', a', rfl, -, idm, rfl⟩ := List.filter_eq_cons_iff.mp ha
        obtain ⟨d, hd, deadd, w, hw, lt⟩ := outdone g ⟨ing, v, hv, most⟩ dead (b ++ b') m a'
          (by simp) live u ⟨of_decide_eq_true idm, hu⟩
        have late := old d (List.mem_filter.mpr ⟨hd, decide_eq_true hw.1⟩) w hw.2
        exact absurd lt (not_lt_of_ge late)
      | false =>
        rw [if_neg (by simp)]
        obtain ⟨before, after, hl⟩ := List.append_of_mem (ofx.mpr ⟨ing, hv.1⟩)
        rcases came_left before after dead hv.2 with
          ⟨d, hd, -, w, hw, lt⟩ | ⟨n, w, hn, hw, le⟩
        · have ind : d ∈ versions ∧ SyncTarget.id d = some x := ofx.mp (by rw [hl]; simp [hd])
          exact absurd lt (not_lt_of_ge (most d ind.1 w ⟨ind.2, hw⟩))
        · rw [← hl] at hn
          obtain ⟨-, -, -, b, a, hb, -⟩ := left_came hn
          have inn := ofx.mp (by rw [hb]; simp : n ∈ _)
          have same : w = v := le_antisymm (most n inn.1 w ⟨inn.2, hw⟩) le
          rw [hn, distinct n inn.1 g ing x v ⟨inn.2, same ▸ hw⟩ hv]
    · intro nothing
      apply left_none
      intro m hm
      have inm := ofx.mp hm
      cases hv : versionOf m with
      | none => rfl
      | some v => exact absurd ⟨inm.2, hv⟩ (nothing m inm.1 v)

/-- A deletion that comes last outdoes everything older. -/
theorem outdone_of_last {versions : List M} (before : List M) {d : M} {v : ℚ} (dead : deleted d = true)
    (hd : VersionOf versionOf x d v)
    (older : ∀ m ∈ before, deleted m = false → ∀ w, VersionOf versionOf x m w → w < v) :
    Outdone versionOf versions (before ++ [d]) x := by
  intro g _ _ front m after hl live w hw
  rcases List.eq_nil_or_concat after with rfl | ⟨after, e, rfl⟩
  · obtain ⟨-, rfl⟩ := List.append_inj' hl rfl |>.imp_right List.singleton_inj.mp
    rw [dead] at live
    cases live
  · rw [List.concat_eq_append, ← List.cons_append, ← List.append_assoc] at hl
    obtain ⟨rfl, hde⟩ := List.append_inj' hl rfl
    obtain rfl := List.singleton_inj.mp hde
    exact ⟨d, by simp, dead, v, hd, older m (by simp) live w hw⟩

/-- What the versions say about an id is one thing. -/
theorem Says.unique {versions : List M} {r r' : Option M} (hr : Says versionOf versions x r)
    (hr' : Says versionOf versions x r') : r = r' := by
  by_cases h : ∃ m ∈ versions, ∃ v, VersionOf versionOf x m v
  · obtain ⟨g, hg⟩ := exists_greatest h
    rw [hr.1 g hg, hr'.1 g hg]
  · have nothing : ∀ m ∈ versions, ∀ v, ¬ VersionOf versionOf x m v :=
      fun m hm v hv => h ⟨m, hm, v, hv⟩
    rw [hr.2 nothing, hr'.2 nothing]

/-- **Convergence.** Of two orders in which the same versions arrive, each leaves of
an id what the versions say exactly if it outdoes the deleted; so both leave the same
if both do. -/
theorem arrival_orders_agree (adapter : SyncProtocolAdapter M) (versions : List M)
    (distinct : Distinct (adapter.versionOf.getD SyncTarget.updatedAt) versions)
    {es₁ es₂ : List (HandleEvent M)} {h₁ h₂ : ModelSyncHandle M}
    (run₁ : Run ModelSyncHandle.step Arrives (create adapter) es₁ h₁)
    (run₂ : Run ModelSyncHandle.step Arrives (create adapter) es₂ h₂)
    (all₁ : ∀ m, m ∈ arrivals es₁ ↔ m ∈ versions) (all₂ : ∀ m, m ∈ arrivals es₂ ↔ m ∈ versions)
    (x : JSString) :
    let versionOf := adapter.versionOf.getD SyncTarget.updatedAt
    (Says versionOf versions x (h₁.store.get? x) ↔
        Outdone versionOf versions (arrivals es₁) x) ∧
      (Says versionOf versions x (h₂.store.get? x) ↔
        Outdone versionOf versions (arrivals es₂) x) ∧
      (Outdone versionOf versions (arrivals es₁) x → Outdone versionOf versions (arrivals es₂) x →
        h₁.store.get? x = h₂.store.get? x) := by
  intro versionOf
  have left {es : List (HandleEvent M)} {h : ModelSyncHandle M}
      (run : Run ModelSyncHandle.step Arrives (create adapter) es h)
      (all : ∀ m, m ∈ arrivals es ↔ m ∈ versions) :
      Says versionOf versions x (h.store.get? x) ↔
        Outdone versionOf versions (arrivals es) x := by
    rw [run_get? run]
    exact left_agrees_iff distinct all
  have left₁ := left run₁ all₁
  have left₂ := left run₂ all₂
  exact ⟨left₁, left₂, fun first second => (left₁.mpr first).unique (left₂.mpr second)⟩

/-! ## A note, written and deleted -/

structure Note where
  id : JSString
  updatedAt : ℚ
  deletedAt : Option ℚ
  deriving DecidableEq

instance : SyncTarget Note where
  id m := some m.id
  updatedAt m := some m.updatedAt
  deletedAt m := m.deletedAt

def written : Note := ⟨lit "n", 1, none⟩

def removed : Note := ⟨lit "n", 2, some 2⟩

theorem notes_distinct : Distinct SyncTarget.updatedAt [written, removed] := by
  intro m hm n hn x v hv hw
  have h : m.updatedAt = n.updatedAt := Option.some.inj (hv.2.trans hw.2.symm)
  simp only [List.mem_cons, List.not_mem_nil, or_false] at hm hn
  rcases hm with rfl | rfl <;> rcases hn with rfl | rfl
  · rfl
  · exact absurd h (by decide)
  · exact absurd h (by decide)
  · rfl

/-- The deletion comes with an event, and again with the second page of a pull. -/
theorem arrival_orders_agree_notes : ∃ h₁ h₂ : ModelSyncHandle Note,
    Run ModelSyncHandle.step Arrives (create ⟨none⟩) [.event (some [written, removed])] h₁ ∧
      Run ModelSyncHandle.step Arrives (create ⟨none⟩)
        [.event (some [removed]), .pull, .page [written] true, .page [removed] false] h₂ ∧
      h₁.store.get? (lit "n") = h₂.store.get? (lit "n") := by
  obtain ⟨h₁, run₁⟩ := Run.of_allGood ModelSyncHandle.step Arrives
    (create ⟨none⟩) [.event (some [written, removed])] (by decide +kernel)
  obtain ⟨h₂, run₂⟩ := Run.of_allGood ModelSyncHandle.step Arrives (create ⟨none⟩)
    [.event (some [removed]), .pull, .page [written] true, .page [removed] false]
    (by decide +kernel)
  have older : ∀ m ∈ [removed, written], deleted m = false →
      ∀ w, VersionOf SyncTarget.updatedAt (lit "n") m w → w < 2 := by
    intro m hm live w hw
    simp only [List.mem_cons, List.not_mem_nil, or_false] at hm
    rcases hm with rfl | rfl
    · exact absurd live (by decide)
    · cases hw.2
      decide
  refine ⟨h₁, h₂, run₁, run₂, ?_⟩
  refine (arrival_orders_agree ⟨none⟩ [written, removed] notes_distinct run₁ run₂
    (by simp [arrivals, HandleEvent.models]) (by simp [arrivals, HandleEvent.models])
    (lit "n")).2.2 ?_ ?_
  · apply outdone_of_last [written] (d := removed) rfl ⟨rfl, rfl⟩
    exact fun m hm => older m (List.mem_cons_of_mem _ hm)
  · exact outdone_of_last [removed, written] (d := removed) rfl ⟨rfl, rfl⟩ older

/-- A deletion that arrives before the content it deletes is forgotten. -/
theorem early_deletion_is_forgotten : ∃ (es₁ es₂ : List (HandleEvent Note))
    (h₁ h₂ : ModelSyncHandle Note),
    Run ModelSyncHandle.step Arrives (create ⟨none⟩) es₁ h₁ ∧
      Run ModelSyncHandle.step Arrives (create ⟨none⟩) es₂ h₂ ∧
      arrivals es₁ = [written, removed] ∧ arrivals es₂ = [removed, written] ∧
      Distinct SyncTarget.updatedAt [written, removed] ∧
      Greatest SyncTarget.updatedAt [written, removed] (lit "n") removed ∧
      h₁.store.get? (lit "n") = none ∧ h₂.store.get? (lit "n") = some written := by
  obtain ⟨h₁, run₁⟩ := Run.of_allGood ModelSyncHandle.step Arrives
    (create ⟨none⟩) [.event (some [written]), .event (some [removed])] (by decide +kernel)
  obtain ⟨h₂, run₂⟩ := Run.of_allGood ModelSyncHandle.step Arrives
    (create ⟨none⟩) [.event (some [removed]), .event (some [written])] (by decide +kernel)
  refine ⟨_, _, h₁, h₂, run₁, run₂, rfl, rfl, notes_distinct, ?_, ?_, ?_⟩
  · refine ⟨by simp, 2, ⟨rfl, rfl⟩, fun m hm w hw => ?_⟩
    simp only [List.mem_cons, List.not_mem_nil, or_false] at hm
    rcases hm with rfl | rfl <;> cases hw.2 <;> decide
  · rw [run₁.read (f := fun h => h.store.get? (lit "n")) (a := none) (by decide +kernel)]
  · rw [run₂.read (f := fun h => h.store.get? (lit "n")) (a := some written) (by decide +kernel)]

end LemonModel
