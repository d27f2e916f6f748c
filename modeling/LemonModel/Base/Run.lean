import Mathlib.Tactic

/-!
# Runs of a step function

A system is a partial step function on states, driven by events. `Run step good`
is a run each of whose steps met the condition `good` when it was taken.
-/

namespace LemonModel

section

variable {σ ε : Type} (step : σ → ε → Option σ) (good : σ → ε → Prop)

/-- The state after a list of events, if every one of them is possible. -/
def exec : σ → List ε → Option σ
  | s, [] => some s
  | s, e :: es => (step s e).bind fun s' => exec s' es

inductive Run : σ → List ε → σ → Prop where
  | nil (s : σ) : Run s [] s
  | cons {s s₁ s' : σ} {e : ε} {es : List ε} :
    good s e → step s e = some s₁ → Run s₁ es s' → Run s (e :: es) s'

end

variable {σ ε : Type} {step : σ → ε → Option σ} {good : σ → ε → Prop}

theorem Run.exec_eq {s s' : σ} {es : List ε} (run : Run step good s es s') :
    exec step s es = some s' := by
  induction run with
  | nil => rfl
  | cons _ hstep _ ih => rw [exec, hstep, Option.bind_some, ih]

/-- **The run rule.** What every good step preserves, a good run preserves. -/
theorem Run.invariant (inv : σ → Prop)
    (preserved : ∀ s e s', inv s → good s e → step s e = some s' → inv s') {s s' : σ}
    {es : List ε} (run : Run step good s es s') (start : inv s) : inv s' := by
  induction run with
  | nil => exact start
  | cons hgood hstep _ ih => exact ih (preserved _ _ _ start hgood hstep)

theorem Run.split {s₁ s₃ : σ} {es₁ es₂ : List ε} (h : Run step good s₁ (es₁ ++ es₂) s₃) :
    ∃ s₂, Run step good s₁ es₁ s₂ ∧ Run step good s₂ es₂ s₃ := by
  induction es₁ generalizing s₁ with
  | nil => exact ⟨s₁, .nil s₁, h⟩
  | cons e es₁ ih =>
    cases h with
    | cons hgood hstep rest =>
      obtain ⟨s₂, first, second⟩ := ih rest
      exact ⟨s₂, .cons hgood hstep first, second⟩

theorem Run.weaken {weak : σ → ε → Prop} (h : ∀ s e, good s e → weak s e) {s s' : σ}
    {es : List ε} (run : Run step good s es s') : Run step weak s es s' := by
  induction run with
  | nil => exact .nil _
  | cons hgood hstep _ ih => exact .cons (h _ _ hgood) hstep ih

/-- A run whose events are good wherever they happen. -/
theorem Run.of_events {es : List ε} (events : ∀ e ∈ es, ∀ s, good s e) {s s' : σ}
    (h : exec step s es = some s') : Run step good s es s' := by
  induction es generalizing s with
  | nil =>
    obtain rfl : s = s' := by simpa [exec] using h
    exact .nil s
  | cons e es ih =>
    obtain ⟨s₁, hstep, hrest⟩ := Option.bind_eq_some_iff.mp h
    exact .cons (events e List.mem_cons_self s) hstep
      (ih (fun e he => events e (List.mem_cons_of_mem _ he)) hrest)

theorem Run.of_exec (always : ∀ s e, good s e) {s s' : σ} {es : List ε}
    (h : exec step s es = some s') : Run step good s es s' :=
  Run.of_events (fun e _ s => always s e) h

/-- The rule where every step keeps the invariant. -/
theorem exec_invariant (inv : σ → Prop)
    (preserved : ∀ s e s', inv s → step s e = some s' → inv s') {s s' : σ} {es : List ε}
    (h : exec step s es = some s') (start : inv s) : inv s' := by
  have run : Run step (fun _ _ => True) s es s' := .of_exec (fun _ _ => trivial) h
  exact run.invariant inv (fun s e s' hinv _ hstep => preserved s e s' hinv hstep) start

/-- A good run meets what a good step implies where the invariant holds. -/
theorem Run.imply {good' : σ → ε → Prop} {inv : σ → Prop}
    (preserved : ∀ s e s', inv s → good s e → step s e = some s' → inv s' ∧ good' s e)
    {s s' : σ} {es : List ε} (run : Run step good s es s') (start : inv s) :
    Run step good' s es s' := by
  induction run with
  | nil => exact .nil _
  | cons hgood hstep _ ih =>
    obtain ⟨kept, next⟩ := preserved _ _ _ start hgood hstep
    exact .cons next hstep (ih kept)

/-- Two conditions that agree where the invariant holds admit the same runs. -/
theorem Run.congr {good' : σ → ε → Prop} {inv : σ → Prop}
    (preserved : ∀ s e s', inv s → step s e = some s' → inv s')
    (agree : ∀ s e, inv s → (good s e ↔ good' s e)) {s s' : σ} {es : List ε} (start : inv s) :
    Run step good s es s' ↔ Run step good' s es s' := by
  constructor
  · intro run
    exact run.imply (fun s e s' h hgood hstep =>
      ⟨preserved s e s' h hstep, (agree s e h).mp hgood⟩) start
  · intro run
    exact run.imply (fun s e s' h hgood hstep =>
      ⟨preserved s e s' h hstep, (agree s e h).mpr hgood⟩) start

/-- Where a step keeps `holds` exactly if it is good, `holds` is true all along a run
exactly if every step of it is good. The invariant is needed only where `holds` is true. -/
theorem exec_judged_iff {inv holds : σ → Prop}
    (judged : ∀ s e s', inv s → holds s → step s e = some s' →
      inv s' ∧ (holds s' ↔ good s e)) {s s' : σ} {es : List ε} (start : inv s) (first : holds s)
    (h : exec step s es = some s') :
    (∀ pre t, pre <+: es → exec step s pre = some t → holds t) ↔ Run step good s es s' := by
  constructor
  · intro always
    induction es generalizing s with
    | nil =>
      obtain rfl : s = s' := by simpa [exec] using h
      exact .nil s
    | cons e es ih =>
      obtain ⟨s₁, hstep, rest⟩ := Option.bind_eq_some_iff.mp h
      have next : holds s₁ := by
        apply always [e] s₁ (by simp)
        simp [exec, hstep]
      obtain ⟨kept, same⟩ := judged _ _ _ start first hstep
      refine .cons (same.mp next) hstep (ih kept next rest fun pre t hpre ht => ?_)
      apply always (e :: pre) t (List.cons_prefix_cons.mpr ⟨rfl, hpre⟩)
      rw [exec, hstep]
      exact ht
  · intro run pre t hpre ht
    obtain ⟨post, rfl⟩ := hpre
    obtain ⟨t', before, -⟩ := run.split
    obtain rfl : t' = t := Option.some.inj (before.exec_eq.symm.trans ht)
    have both := before.invariant (fun s => inv s ∧ holds s)
      (fun s e s' h hgood hstep =>
        have next := judged s e s' h.1 h.2 hstep
        ⟨next.1, next.2.mpr hgood⟩) ⟨start, first⟩
    exact both.2

/-- A run is good where every event was good when it happened. -/
theorem run_iff_everywhere {s s' : σ} {es : List ε} (h : exec step s es = some s') :
    Run step good s es s' ↔
      ∀ pre e t, pre ++ [e] <+: es → exec step s pre = some t → good t e := by
  constructor
  · rintro run pre e t ⟨post, rfl⟩ ht
    obtain ⟨t₂, before, -⟩ := run.split
    obtain ⟨t₁, first, last⟩ := before.split
    obtain rfl := Option.some.inj (first.exec_eq.symm.trans ht)
    cases last with
    | cons good => exact good
  · intro all
    induction es generalizing s with
    | nil =>
      obtain rfl : s = s' := by simpa [exec] using h
      exact .nil s
    | cons e es ih =>
      obtain ⟨s₁, hstep, rest⟩ := Option.bind_eq_some_iff.mp h
      refine .cons (all [] e s (by simp) rfl) hstep (ih rest fun pre e' t hpre ht => ?_)
      apply all (e :: pre) e' t (List.cons_prefix_cons.mpr ⟨rfl, hpre⟩)
      rw [exec, hstep]
      exact ht

/-- Two ways to run the same events look alike all along exactly if every step is good,
where good steps are the same both ways, and no others look alike. -/
theorem exec_alike_iff {α : Type} {f : ε → ε} {look : σ → α}
    (alike : ∀ s e, (step s e).map look = (step s (f e)).map look → good s e)
    (same : ∀ s e, good s e → step s e = step s (f e)) {s s' : σ} {es : List ε}
    (h : exec step s es = some s') :
    (∀ pre, pre <+: es → (exec step s pre).map look = (exec step s (pre.map f)).map look) ↔
      Run step good s es s' := by
  induction es generalizing s with
  | nil =>
    obtain rfl : s = s' := by simpa [exec] using h
    refine iff_of_true (fun pre hpre => ?_) (.nil s)
    rw [List.prefix_nil.mp hpre]
    rfl
  | cons e es ih =>
    obtain ⟨s₁, hstep, rest⟩ := Option.bind_eq_some_iff.mp h
    constructor
    · intro agree
      have hgood : good s e := alike s e (by simpa [exec] using agree [e] (by simp))
      refine .cons hgood hstep ((ih rest).mp fun pre hpre => ?_)
      have longer := agree (e :: pre) (List.cons_prefix_cons.mpr ⟨rfl, hpre⟩)
      rw [List.map_cons, exec, exec, ← same s e hgood, hstep] at longer
      exact longer
    · intro run pre hpre
      cases run with
      | cons hgood hstep' tail =>
        obtain rfl := Option.some.inj (hstep.symm.trans hstep')
        cases pre with
        | nil => rfl
        | cons e' pre =>
          obtain ⟨rfl, shorter⟩ := List.cons_prefix_cons.mp hpre
          rw [List.map_cons, exec, exec, ← same s e' hgood, hstep]
          exact (ih rest).mpr tail pre shorter

/-- Every step of the run from `s` is possible and good. -/
def allGood (step : σ → ε → Option σ) (good : σ → ε → Prop) [∀ s e, Decidable (good s e)] :
    σ → List ε → Bool
  | _, [] => true
  | s, e :: es =>
    match step s e with
    | none => false
    | some s' => decide (good s e) && allGood step good s' es

/-- A run that can be checked by running it. -/
theorem Run.of_allGood (step : σ → ε → Option σ) (good : σ → ε → Prop)
    [∀ s e, Decidable (good s e)] (s : σ) (es : List ε)
    (h : allGood step good s es = true) : ∃ s', Run step good s es s' := by
  induction es generalizing s with
  | nil => exact ⟨s, .nil s⟩
  | cons e es ih =>
    rw [allGood] at h
    split at h
    · cases h
    · rename_i s₁ hstep
      rw [Bool.and_eq_true, decide_eq_true_eq] at h
      obtain ⟨s', run⟩ := ih _ h.2
      exact ⟨s', .cons h.1 hstep run⟩

/-- Reading a value off the last state of a run. -/
theorem Run.read {α : Type} {f : σ → α} {a : α} {s s' : σ} {es : List ε}
    (run : Run step good s es s') (h : (exec step s es).map f = some a) : f s' = a := by
  rw [run.exec_eq] at h
  exact Option.some.inj h

end LemonModel
