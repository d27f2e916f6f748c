import LemonModel.Base.Run

/-!
# One system seen as another

A step of a system is a number of steps of another one: of the specification it
implements, or of one of its own parts.
-/

namespace LemonModel

section

variable {σ τ ε δ : Type} {step : σ → ε → Option σ} {good : σ → ε → Prop}
  {spec : τ → δ → Option τ}

theorem exec_append {es es' : List ε} {s s' s'' : σ} (first : exec step s es = some s')
    (second : exec step s' es' = some s'') : exec step s (es ++ es') = some s'' := by
  induction es generalizing s with
  | nil =>
    obtain rfl : s = s' := by simpa [exec] using first
    exact second
  | cons e es ih =>
    obtain ⟨s₁, hstep, rest⟩ := Option.bind_eq_some_iff.mp first
    rw [List.cons_append, exec, hstep, Option.bind_some]
    exact ih rest

/-- Every good step from related states is a number of steps of the specification,
and leads to related states. -/
structure Simulates (step : σ → ε → Option σ) (good : σ → ε → Prop) (spec : τ → δ → Option τ)
    (rel : σ → τ → Prop) : Prop where
  moves : ∀ s e s' t, rel s t → good s e → step s e = some s' →
    ∃ ds t', exec spec t ds = some t' ∧ rel s' t'

/-- **The simulation rule.** A good run is a run of the specification. -/
theorem Simulates.run {rel : σ → τ → Prop} (h : Simulates step good spec rel) {s s' : σ}
    {es : List ε} (run : Run step good s es s') {t : τ} (start : rel s t) :
    ∃ ds t', exec spec t ds = some t' ∧ rel s' t' := by
  induction run generalizing t with
  | nil => exact ⟨[], t, rfl, start⟩
  | cons hgood hstep _ ih =>
    obtain ⟨ds, t₁, moved, next⟩ := h.moves _ _ _ _ start hgood hstep
    obtain ⟨ds', t', rest, last⟩ := ih next
    exact ⟨ds ++ ds', t', exec_append moved rest, last⟩

/-- **The projection rule.** A part of a system that takes part in an event by `reads`
only goes through these. -/
theorem Run.project {view : σ → τ} {reads : ε → List δ}
    (moves : ∀ s e s', good s e → step s e = some s' →
      exec spec (view s) (reads e) = some (view s')) {s s' : σ} {es : List ε}
    (run : Run step good s es s') : exec spec (view s) (es.flatMap reads) = some (view s') := by
  induction run with
  | nil => rfl
  | cons hgood hstep _ ih =>
    rw [List.flatMap_cons]
    exact exec_append (moves _ _ _ hgood hstep) ih

end

/-! ## A queue -/

/-- What waits, and a record of what was taken, both with the oldest first. -/
structure Queue (α : Type) where
  waiting : List α
  taken : List α

inductive QueueEvent (α : Type) where
  | put (a : α)
  | take

namespace Queue

variable {α : Type}

def empty : Queue α := ⟨[], []⟩

def step (q : Queue α) : QueueEvent α → Option (Queue α)
  | .put a => some { q with waiting := q.waiting ++ [a] }
  | .take =>
    match q.waiting with
    | [] => none
    | a :: rest => some ⟨rest, q.taken ++ [a]⟩

theorem exec_nothing (q : Queue α) : exec step q [] = some q := rfl

theorem exec_put (q : Queue α) (a : α) :
    exec step q [.put a] = some ⟨q.waiting ++ [a], q.taken⟩ := rfl

theorem exec_take {q : Queue α} {a : α} {rest : List α} (h : q.waiting = a :: rest) :
    exec step q [.take] = some ⟨rest, q.taken ++ [a]⟩ := by
  simp [exec, step, h]

end Queue

end LemonModel
