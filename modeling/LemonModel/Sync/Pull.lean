import LemonModel.Sync.Converge

/-!
# The pull of a handle

How a pull goes on and ends, step by step, and what applying live models does to a
store and a watermark.
-/

namespace LemonModel

open Text ModelSyncHandle

/-! ## The pull of a handle -/

variable {M : Type} [SyncTarget M] {h h' : ModelSyncHandle M}

/-- Whether the last pull succeeded. -/
def ModelSyncHandle.succeeded (h : ModelSyncHandle M) : Bool :=
  match h.pulls with
  | some _ :: _ => true
  | _ => false

omit [SyncTarget M] in
theorem tellRest_goes {p p' : Pull M} {next : Bool} {ls : List Nat}
    (hp : (h.tellRest p next ls).pulling = some p') :
    p'.since = p.since ∧ ∀ ls' next', p'.phase = .telling ls' next' → next' = next := by
  cases ls with
  | nil =>
    simp only [tellRest, nextPage] at hp
    split at hp
    · cases hp
      exact ⟨rfl, fun _ _ h => nomatch h⟩
    · cases hp
  | cons l rest =>
    cases hp
    refine ⟨rfl, fun ls' next' same => ?_⟩
    cases same
    rfl

omit [SyncTarget M] in
theorem tellRest_ends {p : Pull M} {next : Bool} {ls : List Nat}
    (hp : (h.tellRest p next ls).pulling = none) :
    next = false ∧ ModelSyncHandle.succeeded (h.tellRest p next ls) = true := by
  cases ls with
  | nil =>
    cases next with
    | false => exact ⟨rfl, rfl⟩
    | true => cases hp
  | cons l rest => cases hp

/-- A page that is accepted leaves the pull to its listeners, if there are any to
tell. -/
theorem acceptPage_eq (p : Pull M) (models : List M) (next : Bool) :
    ∃ k ls p', h.acceptPage p models next = tellRest k p' next ls ∧ p'.since = p.since := by
  simp only [acceptPage]
  split
  · exact ⟨_, [], _, rfl, rfl⟩
  · exact ⟨_, _, _, rfl, rfl⟩

/-- An event that is none of a pull's leaves it alone. -/
def HandleEvent.aside : HandleEvent M → Bool
  | .pull | .page _ _ | .fail | .told _ => false
  | _ => true

theorem step_aside {e : HandleEvent M} (aside : e.aside = true) (hstep : h.step e = some h') :
    h'.pulling = h.pulling := by
  cases e with
  | event models =>
    obtain rfl := Option.some.inj hstep
    unfold applyEvent
    split
    · rfl
    · split
      · rfl
      · simp only
        split <;> rfl
  | onChange l =>
    obtain rfl := Option.some.inj hstep
    unfold ModelSyncHandle.onChange
    split <;> rfl
  | unsubscribe l =>
    obtain rfl := Option.some.inj hstep
    rfl
  | close =>
    obtain rfl := Option.some.inj hstep
    unfold ModelSyncHandle.close
    split <;> rfl
  | pull | page _ _ | fail | told _ => cases aside

omit [SyncTarget M] in
theorem pull_cases (h : ModelSyncHandle M) :
    h.pull = h ∨ h.pulling = none ∧
      h.pull = { h with pulling := some ⟨h.since, [], .requesting⟩ } := by
  unfold ModelSyncHandle.pull
  split
  · exact .inl rfl
  · rename_i free
    refine .inr ⟨?_, rfl⟩
    cases hp : h.pulling with
    | none => rfl
    | some p => exact absurd (.inr (by rw [hp]; rfl)) free

/-- A pull that goes on is new, or the one before. -/
theorem step_goes {e : HandleEvent M} {p' : Pull M} (hstep : h.step e = some h')
    (hp' : h'.pulling = some p') :
    (h.pulling = none ∧ e = .pull ∧ p' = ⟨h.since, [], .requesting⟩) ∨
      ∃ p, h.pulling = some p ∧ p'.since = p.since ∧
        ∀ ls next, p'.phase = .telling ls next →
          (∃ ls₀, p.phase = .telling ls₀ next) ∨ ∃ models, e = .page models next := by
  cases e with
  | pull =>
    obtain rfl := Option.some.inj hstep
    rcases pull_cases h with joined | ⟨free, begun⟩
    · rw [joined] at hp'
      exact .inr ⟨p', hp', rfl, fun ls _ phase => .inl ⟨ls, phase⟩⟩
    · rw [begun] at hp'
      exact .inl ⟨free, rfl, (Option.some.inj hp').symm⟩
  | page models next =>
    obtain ⟨p, hp, -, rfl⟩ := step_page hstep
    obtain ⟨k, ls, p₁, eq, since⟩ := acceptPage_eq (h := h) p models next
    rw [eq] at hp'
    obtain ⟨same, phase⟩ := tellRest_goes hp'
    refine .inr ⟨p, hp, same.trans since, fun ls' next' telling => .inr ⟨models, ?_⟩⟩
    rw [phase ls' next' telling]
  | fail =>
    obtain ⟨p, -, -, rfl⟩ := step_fail hstep
    cases hp'
  | told ok =>
    obtain ⟨p, l, rest, next, hp, before, rfl⟩ := step_told hstep
    cases ok with
    | false => cases hp'
    | true =>
      rw [if_pos rfl] at hp'
      obtain ⟨same, phase⟩ := tellRest_goes hp'
      refine .inr ⟨p, hp, same, fun ls' next' telling => .inl ⟨l :: rest, ?_⟩⟩
      rw [before, phase ls' next' telling]
  | event _ | onChange _ | unsubscribe _ | close =>
    rw [step_aside rfl hstep] at hp'
    exact .inr ⟨p', hp', rfl, fun ls _ phase => .inl ⟨ls, phase⟩⟩

/-- A pull succeeds with its last page or the last listener of that, and fails where
a request or a listener does. -/
theorem step_ends {e : HandleEvent M} {p : Pull M} (hstep : h.step e = some h')
    (hp : h.pulling = some p) (ended : h'.pulling = none) :
    (ModelSyncHandle.succeeded h' = true ∧
        ((∃ models, e = .page models false) ∨
          e = .told true ∧ ∃ ls, p.phase = .telling ls false)) ∨
      (ModelSyncHandle.succeeded h' = false ∧ (e = .fail ∨ e = .told false)) := by
  cases e with
  | pull =>
    obtain rfl := Option.some.inj hstep
    rcases pull_cases h with joined | ⟨free, -⟩
    · rw [joined, hp] at ended
      cases ended
    · rw [hp] at free
      cases free
  | page models next =>
    obtain ⟨p, -, -, rfl⟩ := step_page hstep
    obtain ⟨k, ls, p₁, eq, -⟩ := acceptPage_eq (h := h) p models next
    rw [eq] at ended ⊢
    obtain ⟨rfl, succeeded⟩ := tellRest_ends ended
    exact .inl ⟨succeeded, .inl ⟨models, rfl⟩⟩
  | fail =>
    obtain ⟨p, -, -, rfl⟩ := step_fail hstep
    exact .inr ⟨rfl, .inl rfl⟩
  | told ok =>
    obtain ⟨p₀, l, rest, next, hp₀, before, rfl⟩ := step_told hstep
    rw [hp] at hp₀
    cases hp₀
    cases ok with
    | false => exact .inr ⟨rfl, .inr rfl⟩
    | true =>
      rw [if_pos rfl] at ended ⊢
      obtain ⟨rfl, succeeded⟩ := tellRest_ends ended
      exact .inl ⟨succeeded, .inr ⟨rfl, l :: rest, before⟩⟩
  | event _ | onChange _ | unsubscribe _ | close =>
    rw [step_aside rfl hstep, hp] at ended
    cases ended

/-! ## Stores that only grow -/

section

variable {versionOf : M → Option ℚ} {here : Option M} {l : List M}

theorem arrive_keeps {m n : M} {w : ℚ} (live : deleted m = false) (hn : here = some n)
    (hw : versionOf n = some w) :
    ∃ n' w', arrive versionOf here m = some n' ∧ versionOf n' = some w' ∧ w ≤ w' := by
  rcases arrive_cases versionOf here m with ⟨same, -⟩ | ⟨new, v, hv, newer⟩
  · exact ⟨n, w, same.trans hn, hw, le_refl w⟩
  · exact ⟨m, v, new.trans (if_neg (by simp [live])), hv, (newer n hn w hw).le⟩

theorem arrive_takes (here : Option M) {m : M} {v : ℚ} (live : deleted m = false)
    (hv : versionOf m = some v) :
    ∃ n w, arrive versionOf here m = some n ∧ versionOf n = some w ∧ v ≤ w := by
  rcases arrive_cases versionOf here m with ⟨same, late⟩ | ⟨new, -⟩
  · obtain ⟨n, w, hn, hw, le⟩ := late v hv
    exact ⟨n, w, same.trans hn, hw, le⟩
  · exact ⟨m, v, new.trans (if_neg (by simp [live])), hv, le_refl v⟩

theorem arrivals_keep (live : ∀ m ∈ l, deleted m = false) {n : M} {w : ℚ}
    (hn : here = some n) (hw : versionOf n = some w) :
    ∃ n' w', l.foldl (arrive versionOf) here = some n' ∧ versionOf n' = some w' ∧ w ≤ w' := by
  induction l generalizing here n w with
  | nil => exact ⟨n, w, hn, hw, le_refl w⟩
  | cons m l ih =>
    obtain ⟨k, u, hk, hu, le⟩ := arrive_keeps (live m (List.mem_cons_self ..)) hn hw
    obtain ⟨n', w', hn', hw', le'⟩ := ih (fun m hm => live m (List.mem_cons_of_mem _ hm)) hk hu
    exact ⟨n', w', hn', hw', le.trans le'⟩

theorem arrivals_take (live : ∀ m ∈ l, deleted m = false) {m : M} {v : ℚ} (hm : m ∈ l)
    (hv : versionOf m = some v) :
    ∃ n w, l.foldl (arrive versionOf) here = some n ∧ versionOf n = some w ∧ v ≤ w := by
  induction l generalizing here with
  | nil => cases hm
  | cons k l ih =>
    have rest : ∀ n ∈ l, deleted n = false := fun n hn => live n (List.mem_cons_of_mem _ hn)
    rcases List.mem_cons.mp hm with rfl | hm
    · obtain ⟨n, w, hn, hw, le⟩ := arrive_takes here (live m hm) hv
      obtain ⟨n', w', hn', hw', le'⟩ := arrivals_keep rest hn hw
      exact ⟨n', w', hn', hw', le.trans le'⟩
    · exact ih rest hm

theorem arrivals_from {n : M} (h : l.foldl (arrive versionOf) here = some n) :
    here = some n ∨ n ∈ l := by
  induction l generalizing here with
  | nil => exact .inl h
  | cons m l ih =>
    rcases ih h with h | hn
    · rcases arrive_cases versionOf here m with ⟨same, -⟩ | ⟨new, -⟩
      · exact .inl (same.symm.trans h)
      · rw [new] at h
        split at h
        · cases h
        · cases h
          exact .inr (List.mem_cons_self ..)
    · exact .inr (List.mem_cons_of_mem _ hn)

/-- What the store has of `m` or newer. -/
def Holds (versionOf : M → Option ℚ) (store : Dict JSString M) (m : M) : Prop :=
  ∀ x v, VersionOf versionOf x m v →
    ∃ n w, store.get? x = some n ∧ versionOf n = some w ∧ v ≤ w

/-- Live models that are applied are held after that, and what was held is. -/
theorem applyModels_holds {store : Dict JSString M} (live : ∀ m ∈ l, deleted m = false) {m : M}
    (h : Holds versionOf store m ∨ m ∈ l) :
    Holds versionOf (applyModels versionOf store l).1 m := by
  intro x v hv
  have alive : ∀ n ∈ l.filter fun n => SyncTarget.id n = some x, deleted n = false :=
    fun n hn => live n (List.mem_filter.mp hn).1
  rw [applyModels_get?]
  rcases h with held | hm
  · obtain ⟨n, w, hn, hw, le⟩ := held x v hv
    obtain ⟨n', w', hn', hw', le'⟩ := arrivals_keep alive hn hw
    exact ⟨n', w', hn', hw', le.trans le'⟩
  · exact arrivals_take alive (List.mem_filter.mpr ⟨hm, decide_eq_true hv.1⟩) hv.2

theorem applyModels_from {store : Dict JSString M} {x : JSString} {n : M}
    (h : (applyModels versionOf store l).1.get? x = some n) :
    store.get? x = some n ∨ n ∈ l ∧ SyncTarget.id n = some x := by
  rw [applyModels_get?] at h
  rcases arrivals_from h with h | hn
  · exact .inl h
  · obtain ⟨hn, idn⟩ := List.mem_filter.mp hn
    exact .inr ⟨hn, of_decide_eq_true idn⟩

theorem applied_sub {store : Dict JSString M} {m : M}
    (h : m ∈ (applyModels versionOf store l).2) : m ∈ l := by
  induction l generalizing store with
  | nil => cases h
  | cons n l ih =>
    simp only [applyModels] at h
    split at h
    · rcases List.mem_cons.mp h with rfl | h
      · exact List.mem_cons_self ..
      · exact List.mem_cons_of_mem _ (ih h)
    · exact List.mem_cons_of_mem _ (ih h)

omit [SyncTarget M] in
/-- The watermark comes from where it was, or from a model that was applied. -/
theorem raise_from (versionOf : M → Option ℚ) (w : ℚ) (applied : List M) :
    raise versionOf w applied = w ∨
      ∃ m ∈ applied, (versionOf m).getD 0 = raise versionOf w applied := by
  induction applied generalizing w with
  | nil => exact .inl rfl
  | cons m applied ih =>
    rcases ih (max w ((versionOf m).getD 0)) with same | ⟨n, hn, hw⟩
    · rcases max_choice w ((versionOf m).getD 0) with left | right
      · exact .inl (same.trans left)
      · exact .inr ⟨m, List.mem_cons_self .., (same.trans right).symm⟩
    · exact .inr ⟨n, List.mem_cons_of_mem _ hn, hw⟩

end

end LemonModel
