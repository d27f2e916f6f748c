import LemonModel.Base.Run
import LemonModel.Upload.Pool

/-!
# Completion orders

Runs of the transfer pool whose tasks all resolve, in any order.
-/

namespace LemonModel

namespace Pool

variable {α : Type}

/-- A task in flight resolves. -/
def step (task : Nat → α) (p : Pool α) (i : Nat) : Option (Pool α) :=
  if i ∈ p.running then some (p.settle i (some (task i))) else none

/-- Every worker returned and none was lost to a rejection. -/
def Resolved (p : Pool α) : Prop := p.running = [] ∧ p.failed = false

theorem workers_eq (count : Nat) (limit : Int) :
    (workers count limit : Int) = max 1 (min limit count) := by
  unfold workers
  omega

/-- `order` lists the tasks that resolved so far. -/
structure After (task : Nat → α) (count : Nat) (limit : Int) (order : List Nat)
    (p : Pool α) : Prop where
  sound : p.Sound (workers count limit)
  count : p.count = count
  split : p.started.Perm (order ++ p.running)
  kept : ∀ i ∈ order, p.results[i]? = some (some (task i))

variable {task : Nat → α} {count : Nat} {limit : Int} {order : List Nat} {p p' : Pool α}

theorem after_start : After task count limit [] (start α count limit) := by
  have sound := sound_start α count limit
  refine ⟨sound, count_start count limit, ?_, fun i mem => (nomatch mem)⟩
  -- nothing has a result yet, so what was started is still in flight
  rw [List.nil_append, sound.started, List.perm_ext_iff_of_nodup List.nodup_range sound.nodup]
  intro i
  rw [List.mem_range, Nat.lt_min]
  constructor
  · rintro ⟨before, inside⟩
    by_contra out
    have filled := (sound.filled i inside).mpr ⟨before, out⟩
    rw [count_start] at inside
    simp [results_start, inside] at filled
  · exact sound.below i

theorem perm_started_settle {i : Nat} (mem : i ∈ p.running) (result : α)
    (split : p.started.Perm (order ++ p.running)) :
    (p.settle i (some result)).started.Perm
      (order ++ [i] ++ (p.settle i (some result)).running) := by
  have moved : p.started.Perm (order ++ [i] ++ p.running.erase i) := by
    refine split.trans ?_
    rw [List.append_assoc]
    exact (List.perm_cons_erase mem).append_left order
  unfold settle Pool.take
  dsimp only
  split
  · exact moved
  · rw [← List.append_assoc]
    exact moved.append_right _

theorem After.step (h : After task count limit order p) {i : Nat}
    (step : p.step task i = some p') : After task count limit (order ++ [i]) p' := by
  unfold Pool.step at step
  split at step
  · rename_i mem
    obtain rfl := Option.some.inj step
    have inside : i < p.results.length := h.sound.width ▸ (h.sound.below i mem).2
    refine ⟨h.sound.settle mem _, (count_settle p i _).trans h.count,
      perm_started_settle mem _ h.split, fun j settled => ?_⟩
    rw [results_settle]
    by_cases same : i = j
    · subst same
      rw [List.getElem?_set_self inside]
    · rw [List.getElem?_set_ne same]
      rcases List.mem_append.mp settled with earlier | last
      · exact h.kept j earlier
      · exact absurd (List.mem_singleton.mp last).symm same
  · cases step

theorem After.run {later : List Nat} (h : After task count limit order p)
    (run : exec (Pool.step task) p later = some p') :
    After task count limit (order ++ later) p' := by
  induction later generalizing order p with
  | nil =>
    obtain rfl : p = p' := by simpa [exec] using run
    rwa [List.append_nil]
  | cons i later ih =>
    obtain ⟨p₁, first, rest⟩ := Option.bind_eq_some_iff.mp run
    have := ih (h.step first) rest
    rwa [List.append_assoc] at this

/-! ## What the run amounts to -/

theorem After.length_started (h : After task count limit order p) :
    p.started.length = order.length + p.running.length := by
  rw [h.split.length_eq, List.length_append]

theorem After.length_started_le (h : After task count limit order p) :
    p.started.length ≤ count := by
  rw [h.sound.started, List.length_range, h.count]
  exact Nat.min_le_right _ _

/-- With no task in flight every worker found the indices used up. -/
theorem After.all_started (h : After task count limit order p) (idle : p.running = []) :
    p.started = List.range count := by
  have busy := h.sound.busy
  have size := workers_eq count limit
  rw [idle, List.length_nil] at busy
  have spent : min p.next p.count = count := by
    have := h.count
    omega
  rw [h.sound.started, spent]

theorem After.results_eq (h : After task count limit order p) (idle : p.running = []) :
    p.results = (List.range count).map fun i => some (task i) := by
  have all : p.started.Perm order := by
    have := h.split
    rwa [idle, List.append_nil] at this
  rw [h.all_started idle] at all
  apply List.ext_getElem?
  intro i
  by_cases inside : i < count
  · rw [h.kept i (all.mem_iff.mp (List.mem_range.mpr inside)), List.getElem?_map,
      List.getElem?_range inside]
    rfl
  · have wide : p.results.length ≤ i := by
      rw [h.sound.width, h.count]
      omega
    rw [List.getElem?_eq_none wide, List.getElem?_eq_none (by simpa using inside)]

/-- Whatever the order in which the tasks resolve: no index is started twice, the workers
are never more than they may be and never fewer while an index remains, and the pool
resolves with the results in input order exactly when all of them are in, not before. -/
theorem runPooled_exact (task : Nat → α) (count : Nat) (limit : Int) (order : List Nat)
    (p : Pool α) (run : exec (step task) (start α count limit) order = some p) :
    p.started.Nodup ∧ p.started <+: List.range count ∧
    p.started.Perm (order ++ p.running) ∧
    (p.running.length : Int) ≤ max 1 (min limit count) ∧
    (p.started.length < count → (p.running.length : Int) = max 1 (min limit count)) ∧
    order.length ≤ count ∧ (p.Resolved ↔ order.length = count) ∧
    (¬ p.Resolved → ∃ i, (p.step task i).isSome) ∧
    (p.Resolved → p.started = List.range count ∧
      p.results = (List.range count).map fun i => some (task i)) := by
  have after : After task count limit order p := after_start.run run
  have size := workers_eq count limit
  have busy := after.sound.busy
  have lengths := after.length_started
  have most := after.length_started_le
  have idle_iff : p.running = [] ↔ p.Resolved :=
    ⟨fun idle => ⟨idle, after.sound.failed⟩, fun resolved => resolved.1⟩
  refine ⟨?_, ?_, after.split, by omega, fun more => ?_, by omega, ?_, fun waiting => ?_,
    fun resolved => ⟨after.all_started resolved.1, after.results_eq resolved.1⟩⟩
  · rw [after.sound.started]
    exact List.nodup_range
  · rw [after.sound.started, after.count, ← List.take_range]
    exact List.take_prefix _ _
  · rw [← size, after.sound.full]
    rw [after.sound.started, List.length_range] at more
    have := after.count
    omega
  · rw [← idle_iff]
    constructor
    · intro idle
      have all := congrArg List.length (after.all_started idle)
      rw [idle, List.length_nil] at lengths
      rw [List.length_range] at all
      omega
    · intro all
      exact List.length_eq_zero_iff.mp (by omega)
  · obtain ⟨i, mem⟩ := List.exists_mem_of_ne_nil p.running (mt idle_iff.mp waiting)
    exact ⟨i, by rw [step, if_pos mem]; rfl⟩

/-- Two at once over three tasks, the second of which is the first to resolve. -/
theorem runPooled_exact_twoAtOnce :
    ∃ p, exec (step (10 + ·)) (start Nat 3 2) [1, 0, 2] = some p ∧ p.Resolved ∧
      p.started = List.range 3 ∧ p.results = [some 10, some 11, some 12] := by
  obtain ⟨p, run⟩ := Option.isSome_iff_exists.mp
    (show (exec (step (10 + ·)) (start Nat 3 2) [1, 0, 2]).isSome from by decide)
  obtain ⟨-, -, -, -, -, -, resolves, -, ends⟩ := runPooled_exact (10 + ·) 3 2 [1, 0, 2] p run
  have resolved := resolves.mpr rfl
  obtain ⟨started, results⟩ := ends resolved
  exact ⟨p, run, resolved, started, results⟩

end Pool

end LemonModel
